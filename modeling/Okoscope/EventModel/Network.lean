import Okoscope.Lib.Bytes
import Okoscope.Lib.Outcome
import Okoscope.Lib.Text
import Okoscope.Lib.Time

/-!
# Network, DNS and file activity

Paths and DNS names can only be built through their checks, so a value of
either type is canonical. Connections, listeners and DNS contexts have checked
constructors but public fields, as in the source.
-/
namespace Okoscope.EventModel

open Lib Lib.Bytes Lib.Outcome

inductive IpAddr where
  | v4 (octets : ByteVec 4)
  | v6 (octets : ByteVec 16)
  deriving DecidableEq

/-! ## Files -/

def maxFilePathBytes : Nat := 1024

inductive FileActivityError where
  | invalidPath
  | pathTooLong
  | sameRenamePath
  deriving DecidableEq, Repr

/-- A component of a path. -/
inductive Component where
  | rootDir
  | curDir
  | parentDir
  | normal (name : List Char)
  deriving DecidableEq

/-- The component a part between separators stands for. -/
def partComponent (hasRoot first : Bool) (part : List Char) : Option Component :=
  if part = [] then none
  else if part = ['.'] then (if !hasRoot && first then some .curDir else none)
  else if part = ['.', '.'] then some .parentDir
  else some (.normal part)

/-- Components of a Unix path: empty parts and inner dots vanish. -/
def pathComponents (value : List Char) : List Component :=
  let hasRoot := value.head? = some '/'
  let parts := value.splitOn '/'
  (if hasRoot then [.rootDir] else []) ++
    (partComponent hasRoot true (parts.headD [])).toList ++
    parts.tail.filterMap (partComponent hasRoot false)

def isNormalizedAbsolutePath (s : String) : Bool :=
  let value := s.toList
  if value = [] ∨ Text.contains s '\x00' ∨ value.head? ≠ some '/' then false
  else if value ≠ ['/'] ∧ ((value.splitOn '/').drop 1).any
      (fun component => component = [] || component = ['.'] || component = ['.', '.']) then false
  else
    match pathComponents value with
    | .rootDir :: rest =>
      if rest.any (fun | .normal _ => false | _ => true) then false
      else value = ['/'] || value.getLast? ≠ some '/'
    | _ => false

/-- An absolute normalized path of at most 1024 bytes. -/
structure FileActivityPath where
  value : String
  bounded : Text.len value ≤ maxFilePathBytes
  normalized : isNormalizedAbsolutePath value
  deriving DecidableEq

def FileActivityPath.new (value : String) : Except FileActivityError FileActivityPath :=
  if hlen : Text.len value ≤ maxFilePathBytes then
    if hnorm : isNormalizedAbsolutePath value then .ok ⟨value, hlen, hnorm⟩
    else .error .invalidPath
  else .error .pathTooLong

/-- Whole components only: the rest of the path starts at a separator. -/
def FileActivityPath.isEqualOrDescendantOf (path ancestor : FileActivityPath) : Bool :=
  decide (path = ancestor) ||
    (ancestor.value.toList.isPrefixOf path.value.toList &&
      (ancestor.value = "/" || (path.value.toList.drop ancestor.value.toList.length).head? = some '/'))

structure FileCreate where
  path : FileActivityPath
  deriving DecidableEq

structure FileModify where
  path : FileActivityPath
  deriving DecidableEq

structure FileDelete where
  path : FileActivityPath
  deriving DecidableEq

structure FileRename where
  oldPath : FileActivityPath
  newPath : FileActivityPath
  replaced : Option Bool
  deriving DecidableEq

def FileRename.new (oldPath newPath : FileActivityPath) (replaced : Option Bool) :
    Except FileActivityError FileRename :=
  if oldPath = newPath then .error .sameRenamePath else .ok { oldPath, newPath, replaced }

/-- A path is in the form that the constructor gives it. -/
@[simp] theorem FileActivityPath.new_value (p : FileActivityPath) : FileActivityPath.new p.value = .ok p := by
  simp only [new, p.bounded, p.normalized, dif_pos]

theorem FileRename.new_eq_ok {oldPath newPath : FileActivityPath} {replaced : Option Bool} {r : FileRename} :
    new oldPath newPath replaced = .ok r ↔ oldPath ≠ newPath ∧ r = ⟨oldPath, newPath, replaced⟩ := by
  simp only [new, ite_error_eq_ok, ok_eq_ok, ne_eq, eq_comm (a := r)]

/-! ## Paths by their names -/

section
open List

variable {rest : List Char}

theorem splitOn_absolute : ('/' :: rest).splitOn '/' = [] :: rest.splitOn '/' := splitOn_append_cons_self [] rest

theorem getLast?_ne_separator (h : [] ∉ rest.splitOn '/') : ('/' :: rest).getLast? ≠ some '/' := by
  intro hlast
  obtain ⟨front, hfront⟩ := getLast?_eq_some_iff.mp hlast
  cases front with
  | nil =>
    cases hfront
    exact h mem_cons_self
  | cons =>
    obtain ⟨-, rfl⟩ := List.cons.inj hfront
    refine h ?_
    rw [append_eq, splitOn_append_cons_self]
    exact mem_concat_self

/-- The second reading of the path has nothing else to refuse. -/
theorem pathComponents_absolute (h : ['.', '.'] ∉ rest.splitOn '/') :
    ∃ names, pathComponents ('/' :: rest) = .rootDir :: names ∧ ¬ names.any (fun | .normal _ => false | _ => true) := by
  refine ⟨(rest.splitOn '/').filterMap (partComponent true false), ?_, fun hany => ?_⟩
  · simp [pathComponents, splitOn_absolute, partComponent]
  · obtain ⟨_, hn, hother⟩ := any_eq_true.mp hany
    obtain ⟨c, hc, hn⟩ := mem_filterMap.mp hn
    have hdots : c ≠ ['.', '.'] := ne_of_mem_of_not_mem hc h
    simp only [partComponent, hdots, if_false] at hn
    split at hn
    · cases hn
    split at hn
    · cases hn
    · cases hn
      cases hother

/-- An absolute path without NUL, either the root or with no name that is empty, a dot or two dots. -/
theorem isNormalizedAbsolutePath_iff {s : String} : isNormalizedAbsolutePath s ↔ '\x00' ∉ s.toList ∧
    ∃ rest, s.toList = '/' :: rest ∧ (rest = [] ∨ ∀ c ∈ rest.splitOn '/', c ∉ [[], ['.'], ['.', '.']]) := by
  constructor
  · intro h
    unfold isNormalizedAbsolutePath at h
    dsimp only at h
    split at h
    · cases h
    next hgood =>
    split at h
    · cases h
    next hnames =>
    simp only [not_or, not_not] at hgood
    obtain ⟨rest, hvalue⟩ := head?_eq_some_iff.mp hgood.2.2
    refine ⟨by simpa [Text.contains] using hgood.2.1, rest, hvalue, or_iff_not_imp_left.mpr fun hne c hc hbad => ?_⟩
    rw [hvalue, splitOn_absolute] at hnames
    exact hnames ⟨by simpa using hne, any_eq_true.mpr ⟨c, hc, by simpa [or_assoc] using hbad⟩⟩
  · rintro ⟨hnul, rest, hvalue, hnames⟩
    have hdots : ['.', '.'] ∉ rest.splitOn '/' := by
      obtain rfl | hnames := hnames
      · decide
      · exact fun hmem => hnames _ hmem (by simp)
    obtain ⟨names, heq, hnormal⟩ := pathComponents_absolute hdots
    have hlast : rest = [] ∨ ('/' :: rest).getLast? ≠ some '/' :=
      hnames.imp_right fun h => getLast?_ne_separator fun hmem => h _ hmem mem_cons_self
    unfold isNormalizedAbsolutePath
    dsimp only
    rw [if_neg (by simpa [hvalue, Text.contains] using hnul), hvalue, if_neg, heq]
    · exact (if_neg hnormal).trans (by simpa using hlast)
    · rintro ⟨hne, hany⟩
      rw [splitOn_absolute] at hany
      obtain ⟨c, hc, hbad⟩ := any_eq_true.mp hany
      exact hnames.resolve_left (by simpa using hne) c hc (by simpa [or_assoc] using hbad)

namespace FileActivityPath

/-- The names on the way from the root. -/
def components (p : FileActivityPath) : List (List Char) :=
  if p.value = "/" then [] else p.value.toList.tail.splitOn '/'

variable {p q : FileActivityPath}

theorem absolute (p : FileActivityPath) : ∃ rest, p.value.toList = '/' :: rest := by
  obtain ⟨-, rest, hvalue, -⟩ := isNormalizedAbsolutePath_iff.mp p.normalized
  exact ⟨rest, hvalue⟩

theorem toList_value (p : FileActivityPath) : p.value.toList = '/' :: ['/'].intercalate p.components := by
  obtain ⟨rest, hvalue⟩ := p.absolute
  unfold components
  split
  next hroot =>
    rw [hroot]
    rfl
  next => rw [hvalue, tail_cons, intercalate_splitOn]

/-- A path is known by its components. -/
theorem components_injective : Function.Injective components := by
  intro p q h
  have hvalue : p.value.toList = q.value.toList := by rw [toList_value, toList_value, h]
  cases p
  cases q
  cases String.toList_inj.mp hvalue
  rfl

theorem intercalate_separated {names : List (List Char)} (h : names ≠ []) :
    '/' :: ['/'].intercalate names = names.flatMap ('/' :: ·) := by
  induction names with
  | nil => exact absurd rfl h
  | cons name names ih =>
    cases names with
    | nil => simp
    | cons =>
      rw [intercalate_cons_cons, flatMap_cons, ← ih (cons_ne_nil _ _), append_assoc]
      rfl

/-- Below a directory the path goes on after a separator. -/
theorem isEqualOrDescendantOf_of_ne (h : q.value ≠ "/") : p.isEqualOrDescendantOf q ↔
    p = q ∨ ∃ more, p.value.toList = q.value.toList ++ '/' :: more := by
  rw [isEqualOrDescendantOf, Bool.or_eq_true, decide_eq_true_eq, Bool.and_eq_true, isPrefixOf_iff_prefix]
  refine or_congr_right ⟨?_, ?_⟩
  · rintro ⟨⟨more, hmore⟩, hnext⟩
    rw [← hmore, drop_left, decide_eq_false h, Bool.false_or, decide_eq_true_eq, head?_eq_some_iff] at hnext
    obtain ⟨more, rfl⟩ := hnext
    exact ⟨more, hmore.symm⟩
  · rintro ⟨more, hmore⟩
    simp [hmore]

/-- A path lies under another exactly if it begins with its components. -/
theorem isEqualOrDescendantOf_iff : p.isEqualOrDescendantOf q ↔ q.components <+: p.components := by
  by_cases hroot : q.value = "/"
  · obtain ⟨rest, hvalue⟩ := p.absolute
    rw [components, if_pos hroot]
    simp [isEqualOrDescendantOf, hroot, hvalue]
  rw [isEqualOrDescendantOf_of_ne hroot]
  constructor
  · rintro (rfl | ⟨more, hmore⟩)
    · exact prefix_rfl
    obtain ⟨rest, hvalue⟩ := q.absolute
    have hproot : p.value ≠ "/" := by
      intro hp
      simp [hp, hvalue] at hmore
    rw [components, if_neg hroot, components, if_neg hproot, hmore, hvalue, cons_append, tail_cons, tail_cons,
      splitOn_append_cons_self]
    exact prefix_append _ _
  · rintro ⟨more, hmore⟩
    cases more with
    | nil =>
      rw [append_nil] at hmore
      exact .inl (components_injective hmore.symm)
    | cons name more =>
      have hne : q.components ≠ [] := by
        rw [components, if_neg hroot]
        exact splitOn_ne_nil _ _
      right
      rw [toList_value p, ← hmore, intercalate_separated (append_ne_nil_of_left_ne_nil hne _), flatMap_append,
        ← intercalate_separated hne, ← toList_value]
      exact ⟨_, rfl⟩

end FileActivityPath
end

/-! ## Connections and listeners -/

def linuxEinprogress : UInt16 := 115
def maxLinuxErrno : UInt16 := 4095

inductive NetworkTransport where
  | tcp
  deriving DecidableEq, Repr

inductive NetworkAddressFamily where
  | ipv4
  | ipv6
  deriving DecidableEq, Repr

inductive NetworkConnectOutcome where
  | succeeded
  | inProgress
  | failed
  deriving DecidableEq, Repr

/-- The family an address belongs to. -/
def IpAddr.family : IpAddr → NetworkAddressFamily
  | .v4 _ => .ipv4
  | .v6 _ => .ipv6

inductive InboundNetworkError where
  | zeroLocalPort
  | zeroRemotePort
  | addressFamilyMismatch
  deriving DecidableEq, Repr

inductive NetworkConnectError where
  | zeroDestinationPort
  | addressFamilyMismatch
  | inconsistentOutcome
  | invalidErrno
  deriving DecidableEq, Repr

structure NetworkListen where
  transport : NetworkTransport
  addressFamily : NetworkAddressFamily
  localAddress : IpAddr
  localPort : UInt16
  deriving DecidableEq

structure NetworkAccept where
  transport : NetworkTransport
  addressFamily : NetworkAddressFamily
  localAddress : IpAddr
  localPort : UInt16
  remoteAddress : IpAddr
  remotePort : UInt16
  deriving DecidableEq

def validateEndpoint (family : NetworkAddressFamily) (address : IpAddr) (port : UInt16) (isLocal : Bool) :
    Except InboundNetworkError Unit :=
  if port = 0 then .error (if isLocal then .zeroLocalPort else .zeroRemotePort)
  else if address.family ≠ family then .error .addressFamilyMismatch
  else .ok ()

def NetworkListen.new (addressFamily : NetworkAddressFamily) (localAddress : IpAddr) (localPort : UInt16) :
    Except InboundNetworkError NetworkListen := do
  validateEndpoint addressFamily localAddress localPort true
  return { transport := .tcp, addressFamily, localAddress, localPort }

def NetworkAccept.new (addressFamily : NetworkAddressFamily) (localAddress : IpAddr) (localPort : UInt16)
    (remoteAddress : IpAddr) (remotePort : UInt16) : Except InboundNetworkError NetworkAccept := do
  validateEndpoint addressFamily localAddress localPort true
  validateEndpoint addressFamily remoteAddress remotePort false
  return { transport := .tcp, addressFamily, localAddress, localPort, remoteAddress, remotePort }

variable {family : NetworkAddressFamily}

theorem validateEndpoint_eq_ok {address : IpAddr} {port : UInt16}
    {isLocal : Bool} : validateEndpoint family address port isLocal = .ok () ↔ port ≠ 0 ∧ address.family = family := by
  simp only [validateEndpoint, ite_error_eq_ok, ne_eq, not_not, and_true]

theorem NetworkListen.new_eq_ok {address : IpAddr} {port : UInt16}
    {l : NetworkListen} : new family address port = .ok l ↔
      (port ≠ 0 ∧ address.family = family) ∧ l = ⟨.tcp, family, address, port⟩ := by
  simp only [new, bind_unit_eq_ok, validateEndpoint_eq_ok, pure_eq_ok, eq_comm (a := l)]

theorem NetworkAccept.new_eq_ok {localAddress remoteAddress : IpAddr}
    {localPort remotePort : UInt16} {a : NetworkAccept} :
    new family localAddress localPort remoteAddress remotePort = .ok a ↔
      (localPort ≠ 0 ∧ localAddress.family = family) ∧ (remotePort ≠ 0 ∧ remoteAddress.family = family) ∧
        a = ⟨.tcp, family, localAddress, localPort, remoteAddress, remotePort⟩ := by
  simp only [new, bind_unit_eq_ok, validateEndpoint_eq_ok, pure_eq_ok, eq_comm (a := a)]

end Okoscope.EventModel
