import Okoscope.Agent.TaskLifecycle

/-!
# The counters of a process agree

Each name has as many active threads as there are tasks under it, the names add up to the
totals, and what was active at the start of the window and what was created since then is
active still or has ended. Every operation on the state of a process keeps it so, as long as
no counter has to stop at the largest word.
-/
namespace Okoscope.Agent.TaskLifecycle

open Lib Lib.FiniteMap Lib.Word EventModel
open ProcessRuntime (ProcessKey)
open TaskLifecycleStore ProcessState List

/-! ## What is counted -/

def createdOf (_ : String) (entry : NameState) : Nat := entry.created.toNat
def exitedOf (_ : String) (entry : NameState) : Nat := entry.exited.toNat
def activeOf (_ : String) (entry : NameState) : Nat := entry.active.toNat

/-- One for a task that is counted under the name. -/
def named (name : String) (_ : TaskKey) (task : TaskState) : Nat := if task.name = name then 1 else 0

/-- The counters of the names agree with the tasks and with the totals; `n` task keys were handed out. -/
structure Tallied (n : Nat) (state : ProcessState) : Prop where
  numbered : ∀ k task, state.tasks.lookup k = some task → k.generation.toNat ≤ n
  few : size state.tasks ≤ n
  active : ∀ name, part activeOf state.names name = total (named name) state.tasks
  allActive : total activeOf state.names = size state.tasks
  created : total createdOf state.names = state.created.toNat
  exited : total exitedOf state.names = state.exited.toNat

/-- The totals of the window agree with the tasks. -/
structure Balanced (n : Nat) (state : ProcessState) : Prop where
  balance : state.activeAtStart.toNat + state.created.toNat = size state.tasks + state.exited.toNat
  bound : state.activeAtStart.toNat + state.created.toNat ≤ n
  start_le_peak : state.activeAtStart.toNat ≤ state.peakActive.toNat
  active_le_peak : size state.tasks ≤ state.peakActive.toNat
  peak_le : state.peakActive.toNat ≤ state.activeAtStart.toNat + state.created.toNat

/-- Valid names within the limit, one more when the names past it have theirs. -/
structure NamesWithinLimit (names : Map String NameState) : Prop where
  valid : ∀ name entry, names.lookup name = some entry → validName name
  few : size names ≤ maxThreadNames ∨
    size names ≤ maxThreadNames + 1 ∧ ∃ entry, names.lookup "other" = some entry

/-- Names, gaps and identities are as a window needs them. -/
structure Labelled (state : ProcessState) : Prop where
  names : NamesWithinLimit state.names
  gaps : state.gaps.Nodup
  complete : state.baselineComplete → state.baselineProvenance ≠ .unavailable
  generation : state.generation.validate = .ok ()
  cgroupId : state.process.cgroupId ≠ 0
  pid : state.process.pid ≠ 0
  leader : state.process.pid = state.process.tgid

structure Sound (n : Nat) (state : ProcessState) : Prop where
  tallied : Tallied n state
  balanced : Balanced n state
  labelled : Labelled state

variable {state : ProcessState}

theorem Sound.mono {n m : Nat} (h : n ≤ m) (hs : Sound n state) : Sound m state where
  tallied :=
    { hs.tallied with
      numbered := fun k task hk => (hs.tallied.numbered k task hk).trans h
      few := hs.tallied.few.trans h }
  balanced := { hs.balanced with bound := hs.balanced.bound.trans h }
  labelled := hs.labelled

/-! ## One task more, one task less -/

theorem toNat_succ {a : UInt64} (h : a.toNat + 1 < 2 ^ 64) : (saturatingAdd a 1).toNat = a.toNat + 1 := by
  rw [toNat_saturatingAdd, UInt64.toNat_one]
  omega

theorem toNat_pred (a : UInt64) : (saturatingSub a 1).toNat = a.toNat - 1 := by
  rw [toNat_saturatingSub, UInt64.toNat_one]

theorem toNat_active (h : size state.tasks < 2 ^ 64) : state.active.toNat = size state.tasks :=
  UInt64.toNat_ofNat_of_lt h

theorem part_nameState {f : String → NameState → Nat} (hf : ∀ name, f name {} = 0) (state : ProcessState)
    {name : String} : f name (state.nameState name) = part f state.names name := by
  unfold nameState part
  cases state.names.lookup name with
  | none => exact hf name
  | some => rfl

variable {k : TaskKey} {name : String} {task : TaskState} {names : Map String NameState}

section
variable {n : Nat} {state : ProcessState}

theorem Tallied.lookup_fresh (h : Tallied n state) (hk : n < k.generation.toNat) : state.tasks.lookup k = none := by
  cases hl : state.tasks.lookup k with
  | none => rfl
  | some task => exact absurd (h.numbered k task hl) (Nat.not_le.mpr hk)

theorem Tallied.nameState_active_le (h : Tallied n state) (name : String) :
    (state.nameState name).active.toNat ≤ size state.tasks := by
  rw [← h.allActive]
  exact (part_nameState (fun _ => rfl) state).trans_le (part_le_total activeOf _ _)

variable {entry : NameState} {state' : ProcessState}

/-- The counts of a name and of its process change by as much. -/
def Moved (old entry : NameState) (state state' : ProcessState) : Prop :=
  entry.created.toNat + state.created.toNat = old.created.toNat + state'.created.toNat ∧
    entry.exited.toNat + state.exited.toNat = old.exited.toNat + state'.exited.toNat

section
variable (h : Tallied n state)
include h

/-- Another entry under one name, that stands for `y` tasks more and `x` less; the totals change by as much. -/
theorem Tallied.recount {m x y : Nat}
    (hnumbered : ∀ k task, state'.tasks.lookup k = some task → k.generation.toNat ≤ m) (hfew : size state'.tasks ≤ m)
    (hnames : state'.names = state.names.insert name entry)
    (htasks : ∀ name', total (named name') state'.tasks + (if name = name' then x else 0) =
      total (named name') state.tasks + if name = name' then y else 0)
    (hsize : size state'.tasks + x = size state.tasks + y)
    (hactive : entry.active.toNat + x = (state.nameState name).active.toNat + y)
    (hmoved : Moved (state.nameState name) entry state state') : Tallied m state' := by
  have hpart : ∀ f : String → NameState → Nat, (∀ name, f name {} = 0) →
      total f state'.names + f name (state.nameState name) = total f state.names + f name entry := by
    intro f hf
    rw [hnames, part_nameState hf]
    exact total_insert f state.names name entry
  refine ⟨hnumbered, hfew, fun name' => ?_, ?_, ?_, ?_⟩
  · have htotal := htasks name'
    rw [← h.active name'] at htotal
    rw [hnames, part_insert]
    by_cases hsame : name' = name
    · rw [hsame, ← part_nameState (fun _ => rfl)] at htotal
      simp only [hsame, if_true, activeOf] at htotal ⊢
      omega
    · simp only [hsame, Ne.symm hsame, if_false] at htotal ⊢
      omega
  · have htotal := hpart activeOf fun _ => rfl
    rw [h.allActive] at htotal
    simp only [activeOf] at htotal ⊢
    omega
  · have htotal := hpart createdOf fun _ => rfl
    rw [h.created] at htotal
    simp only [createdOf] at htotal ⊢
    have hcreated := hmoved.1
    omega
  · have htotal := hpart exitedOf fun _ => rfl
    rw [h.exited] at htotal
    simp only [exitedOf] at htotal ⊢
    have hexited := hmoved.2
    omega

/-- A task under a key that has none, one more active under its name. -/
theorem Tallied.put {m : Nat} (hm : n ≤ m) (hfresh : state.tasks.lookup k = none) (hk : k.generation.toNat ≤ m)
    (hfew : size state.tasks < m) (htasks : state'.tasks = state.tasks.insert k { name })
    (hnames : state'.names = state.names.insert name entry)
    (hactive : entry.active.toNat = (state.nameState name).active.toNat + 1)
    (hmoved : Moved (state.nameState name) entry state state') : Tallied m state' := by
  have hsize : size state'.tasks = size state.tasks + 1 := by
    rw [htasks]
    exact size_insert_of_none hfresh _
  refine h.recount (x := 0) (y := 1) ?_ (by omega) hnames ?_ hsize hactive hmoved
  · intro k' task hk'
    rw [htasks] at hk'
    obtain ⟨rfl, -⟩ | ⟨-, hk'⟩ := lookup_insert_some hk'
    · exact hk
    · exact (h.numbered k' task hk').trans hm
  · intro name'
    have htotal := total_insert (named name') state.tasks k { name }
    rw [part_of_none _ hfresh, ← htasks] at htotal
    simpa [named] using htotal

section
variable (hl : state.tasks.lookup k = some task)
include hl

/-- The name of a task has an entry, with the task among its active ones. -/
theorem Tallied.entry_of_task : ∃ entry, state.names.lookup task.name = some entry ∧ state.nameState task.name = entry ∧
      1 ≤ entry.active.toNat := by
  have htask := part_of_lookup (named task.name) hl
  rw [named, if_pos rfl] at htask
  have hone : 1 ≤ part activeOf state.names task.name := by
    rw [h.active, ← htask]
    exact part_le_total _ _ _
  cases hentry : state.names.lookup task.name with
  | none =>
    rw [part_of_none _ hentry] at hone
    cases hone
  | some entry =>
    rw [part_of_lookup _ hentry] at hone
    exact ⟨entry, rfl, by rw [nameState, hentry]; rfl, hone⟩

/-- A task less, one active less under its name. -/
theorem Tallied.take (htasks : state'.tasks = state.tasks.erase k)
    (hnames : state'.names = state.names.insert task.name entry)
    (hactive : entry.active.toNat + 1 = (state.nameState task.name).active.toNat)
    (hmoved : Moved (state.nameState task.name) entry state state') : Tallied n state' := by
  have hsize := size_erase_of_lookup hl
  have hfew := h.few
  rw [← htasks] at hsize
  refine h.recount (x := 1) (y := 0) ?_ (by omega) hnames ?_ hsize hactive hmoved
  · intro k' task' hk'
    rw [htasks] at hk'
    exact h.numbered k' task' (lookup_erase_some hk').2
  intro name
  have htotal := total_erase (named name) state.tasks k
  rw [part_of_lookup _ hl, ← htasks] at htotal
  simpa [named] using htotal

theorem Tallied.drop (hroom : state.exited.toNat + 1 < 2 ^ 64) :
    Tallied n ({ state with tasks := state.tasks.erase k }.countExit task.name) := by
  obtain ⟨entry, hentry, hstate, hpos⟩ := h.entry_of_task hl
  have hbelow : entry.exited.toNat ≤ state.exited.toNat := by
    rw [← h.exited]
    exact (part_of_lookup exitedOf hentry).symm.trans_le (part_le_total _ _ _)
  have hexit : (saturatingAdd entry.exited 1).toNat = entry.exited.toNat + 1 := toNat_succ (by omega)
  have hexited : (saturatingAdd state.exited 1).toNat = state.exited.toNat + 1 := toNat_succ hroom
  have hactive := toNat_pred entry.active
  refine h.take hl rfl (adjust_of_lookup hentry _) ?_ ?_ <;> rw [hstate]
  · dsimp only
    omega
  · refine ⟨rfl, ?_⟩
    show (saturatingAdd entry.exited 1).toNat + _ = _ + (saturatingAdd state.exited 1).toNat
    omega

end

/-- A task under another name, active there and not under the old one. -/
theorem Tallied.move (hn : n < 2 ^ 64) (hl : state.tasks.lookup k = some task) :
    Tallied n (state.moveTask k task.name name) := by
  obtain ⟨entry, hentry, hstate, hpos⟩ := h.entry_of_task hl
  -- the task is taken out under its old name and put back under the new one
  let without : ProcessState := { state with
    tasks := state.tasks.erase k
    names := state.names.insert task.name { entry with active := saturatingSub entry.active 1 } }
  have hpred := toNat_pred entry.active
  have hwithout : Tallied n without := by
    refine h.take hl rfl rfl ?_ ?_ <;> rw [hstate]
    · dsimp only
      omega
    · exact ⟨rfl, rfl⟩
  have hsize : size without.tasks + 1 = size state.tasks := size_erase_of_lookup hl
  have hfew := h.few
  have hroom := hwithout.nameState_active_le name
  have hnames : (state.moveTask k task.name name).names = without.names.insert name
      { without.nameState name with active := saturatingAdd (without.nameState name).active 1 } := by
    simp [moveTask, nameState, adjust_of_lookup hentry, without]
  exact hwithout.put le_rfl (AList.lookup_erase _ _) (h.numbered k task hl) (by omega)
    (insert_erase state.tasks k _).symm hnames (toNat_succ (by omega)) ⟨rfl, rfl⟩

end

end

/-! ## Names -/

/-- A thread can be counted under the name. -/
abbrev HasRoom (names : Map String NameState) (name : String) : Prop :=
  (names.lookup name).isSome ∨ size names < maxThreadNames ∨ name = "other"

theorem NamesWithinLimit.insert (h : NamesWithinLimit names)
    (hvalid : validName name) (hroom : HasRoom names name) (entry : NameState) :
    NamesWithinLimit (names.insert name entry) where
  valid := by
    intro name' entry' hl
    obtain ⟨rfl, -⟩ | ⟨-, hl⟩ := lookup_insert_some hl
    · exact hvalid
    · exact h.valid name' entry' hl
  few := by
    have hother : (∃ e, names.lookup "other" = some e) → ∃ e, (names.insert name entry).lookup "other" = some e := by
      intro he
      obtain ⟨e, he⟩ := he
      rw [lookup_insert_eq]
      by_cases hsame : "other" = name
      · exact ⟨entry, if_pos hsame⟩
      · exact ⟨e, (if_neg hsame).trans he⟩
    cases hl : names.lookup name with
    | some =>
      rw [size_insert_of_lookup hl]
      exact h.few.imp_right fun hmore => ⟨hmore.1, hother hmore.2⟩
    | none =>
      rw [size_insert_of_none hl]
      have hroom' : size names < maxThreadNames ∨ name = "other" := by
        rw [HasRoom, hl] at hroom
        exact hroom.resolve_left (by simp)
      obtain hfew | ⟨hmore, _, he⟩ := h.few
      · obtain hlt | rfl := hroom'
        · exact .inl hlt
        · exact .inr ⟨by omega, entry, by rw [lookup_insert_eq, if_pos rfl]⟩
      obtain hlt | rfl := hroom'
      · exact .inl hlt
      · rw [hl] at he
        cases he

variable {f : NameState → NameState}

theorem NamesWithinLimit.adjust (h : NamesWithinLimit names) : NamesWithinLimit (adjust names name f) := by
  cases hl : names.lookup name with
  | none =>
    rw [FiniteMap.adjust, hl]
    exact h
  | some entry =>
    rw [adjust_of_lookup hl]
    exact h.insert (h.valid name entry hl) (.inl (by rw [hl]; rfl)) _

theorem NamesWithinLimit.mapValues (h : NamesWithinLimit names) : NamesWithinLimit (mapValues f names) where
  valid := by
    intro name entry hl
    rw [lookup_mapValues] at hl
    obtain ⟨entry', hl', -⟩ := Option.map_eq_some_iff.mp hl
    exact h.valid name entry' hl'
  few := by
    rw [size_mapValues, lookup_mapValues]
    refine h.few.imp_right fun hmore => ⟨hmore.1, ?_⟩
    obtain ⟨entry, hentry⟩ := hmore.2
    exact ⟨f entry, by rw [hentry]; rfl⟩

/-- The name a thread is counted under is valid and has room, and nothing else changes. -/
theorem bucketName_spec (state : ProcessState) (hname : validName name) :
    (∃ overflow, (state.bucketName name).2 = { state with overflow }) ∧
      validName (state.bucketName name).1 ∧ HasRoom state.names (state.bucketName name).1 := by
  by_cases hroom : (state.names.lookup name).isSome ∨ size state.names < maxThreadNames
  · have hsame : state.bucketName name = (name, state) := if_pos hroom
    rw [hsame]
    exact ⟨⟨state.overflow, rfl⟩, hname, hroom.imp_right .inl⟩
  have hmore : state.bucketName name = ("other", { state with overflow := saturatingAdd state.overflow 1 }) :=
    if_neg hroom
  have hother : validName "other" := by decide
  rw [hmore]
  exact ⟨⟨_, rfl⟩, hother, .inr (.inr rfl)⟩

/-! ## What each operation on a process keeps -/

section
variable {n : Nat} {state : ProcessState}

section
variable (h : Sound n state)
include h

theorem Sound.withOverflow (overflow : UInt64) : Sound n { state with overflow } where
  tallied := { h.tallied with }
  balanced := { h.balanced with }
  labelled := { h.labelled with }

theorem Sound.addGap (reason : ThreadGapReason) : Sound n (state.addGap reason) where
  tallied := { h.tallied with }
  balanced := { h.balanced with }
  labelled := { h.labelled with gaps := h.labelled.gaps.insert }

theorem Sound.markLost : Sound n state.markLost :=
  { h.addGap .kernelLoss with
    labelled := { (h.addGap .kernelLoss).labelled with complete := fun hfalse => by cases hfalse }
    tallied := { h.tallied with }
    balanced := { h.balanced with } }

section
variable (hn : n + 1 < 2 ^ 64) (hk : k.generation.toNat = n + 1) (hname : validName name)
include hn hk hname

theorem Sound.countStart (hroom : HasRoom state.names name) : Sound (n + 1) (state.countStart k name) := by
  have hbound := h.balanced.bound
  have hcreated : (saturatingAdd state.created 1).toNat = state.created.toNat + 1 := toNat_succ (by omega)
  have hentryCreated : (saturatingAdd (state.nameState name).created 1).toNat =
      (state.nameState name).created.toNat + 1 := by
    have hle := part_le_total createdOf state.names name
    rw [← part_nameState (fun _ => rfl), h.tallied.created] at hle
    simp only [createdOf] at hle
    exact toNat_succ (by omega)
  have hfew := h.tallied.few
  have hle := h.tallied.nameState_active_le name
  have hfresh : state.tasks.lookup k = none := h.tallied.lookup_fresh (by omega)
  have htallied : Tallied (n + 1) (state.countStart k name) := by
    refine h.tallied.put (Nat.le_succ n) hfresh hk.le (by omega) rfl rfl (toNat_succ (by omega)) ⟨?_, rfl⟩
    show (saturatingAdd _ 1).toNat + _ = _ + (saturatingAdd state.created 1).toNat
    omega
  have hsize : size (state.countStart k name).tasks = size state.tasks + 1 := size_insert_of_none hfresh _
  have hpeak : (state.countStart k name).peakActive.toNat = max state.peakActive.toNat (size state.tasks + 1) := by
    have hactive : (state.countStart k name).active.toNat = size state.tasks + 1 := by
      rw [toNat_active (by omega), hsize]
    show (max state.peakActive (state.countStart k name).active).toNat = _
    rw [toNat_max, hactive]
  have hbalance := h.balanced.balance
  have hlow := h.balanced.start_le_peak
  have hhigh := h.balanced.peak_le
  refine ⟨htallied, ⟨?_, ?_, ?_, ?_, ?_⟩, ?_⟩
  · show state.activeAtStart.toNat + (saturatingAdd state.created 1).toNat = _ + state.exited.toNat
    omega
  · show state.activeAtStart.toNat + (saturatingAdd state.created 1).toNat ≤ n + 1
    omega
  · show state.activeAtStart.toNat ≤ _
    omega
  · omega
  · show _ ≤ state.activeAtStart.toNat + (saturatingAdd state.created 1).toNat
    omega
  · exact { h.labelled with names := h.labelled.names.insert hname hroom _ }

theorem Sound.startTask : Sound (n + 1) (state.startTask k name) := by
  obtain ⟨⟨overflow, hstate⟩, hvalid, hroom⟩ := bucketName_spec state hname
  show Sound (n + 1) ((state.bucketName name).2.countStart k (state.bucketName name).1)
  rw [hstate]
  exact (h.withOverflow overflow).countStart hn hk hvalid hroom

end

section
variable (hn : n < 2 ^ 64)
include hn

theorem Sound.dropTask (hl : state.tasks.lookup k = some task) :
    Sound n ({ state with tasks := state.tasks.erase k }.countExit task.name) := by
  have hsize := size_erase_of_lookup hl
  have hbalance := h.balanced.balance
  have hbound := h.balanced.bound
  have hroom : state.exited.toNat + 1 < 2 ^ 64 := by omega
  have hexited : (saturatingAdd state.exited 1).toNat = state.exited.toNat + 1 := toNat_succ hroom
  have hpeak := h.balanced.active_le_peak
  refine ⟨h.tallied.drop hl hroom, { h.balanced with balance := ?_, active_le_peak := ?_ }, ?_⟩
  · show state.activeAtStart.toNat + state.created.toNat =
      size (state.tasks.erase k) + (saturatingAdd state.exited 1).toNat
    omega
  · show size (state.tasks.erase k) ≤ state.peakActive.toNat
    omega
  · exact { h.labelled with names := h.labelled.names.adjust }

theorem Sound.retireTask : Sound n (state.retireTask k) := by
  unfold ProcessState.retireTask
  split
  · exact h
  next hl => exact (h.dropTask hn hl).markLost

theorem Sound.exitTask : Sound n (state.exitTask k) := by
  unfold ProcessState.exitTask
  split
  · exact h.addGap _
  next hl => exact h.dropTask hn hl

theorem Sound.moveTask (hl : state.tasks.lookup k = some task) (hne : task.name ≠ name)
    (hname : validName name) (hroom : HasRoom state.names name) : Sound n (state.moveTask k task.name name) := by
  have hsize : size (state.moveTask k task.name name).tasks = size state.tasks := size_insert_of_lookup hl
  have hnames : NamesWithinLimit (state.moveTask k task.name name).names := by
    refine h.labelled.names.adjust.insert hname ?_ _
    rw [HasRoom, lookup_adjust, if_neg hne.symm, size_adjust]
    exact hroom
  refine ⟨h.tallied.move hn hl, { h.balanced with balance := ?_, active_le_peak := ?_ }, { h.labelled with names := hnames }⟩
  · rw [hsize]
    exact h.balanced.balance
  · rw [hsize]
    exact h.balanced.active_le_peak

theorem Sound.renameTask (hname : validName name) : Sound n (state.renameTask k name) := by
  obtain ⟨⟨overflow, hstate⟩, hvalid, hroom⟩ := bucketName_spec state hname
  have hbucket := h.withOverflow overflow
  rw [← hstate] at hbucket
  have hnames : (state.bucketName name).2.names = state.names := by rw [hstate]
  rw [← hnames] at hroom
  unfold ProcessState.renameTask
  dsimp only
  split
  · exact hbucket
  next hl =>
    split
    · exact hbucket
    next hne => exact hbucket.moveTask hn hl hne hvalid hroom

theorem Sound.resetWindow {start : DateTime} : Sound n (state.resetWindow start) := by
  have hactive := toNat_active (h.tallied.few.trans_lt hn)
  have hzero : ∀ f : String → NameState → Nat, (∀ name (entry : NameState), f name { entry with created := 0, exited := 0 } = 0) →
      total f (state.resetWindow start).names = 0 := by
    intro f hf
    show total f (mapValues _ state.names) = 0
    rw [total_mapValues]
    refine sum_eq_zero fun x hx => ?_
    obtain ⟨e, -, rfl⟩ := mem_map.mp hx
    exact hf e.1 e.2
  refine ⟨⟨h.tallied.numbered, h.tallied.few, ?_, ?_, ?_, ?_⟩, ⟨?_, ?_, ?_, ?_, ?_⟩, ?_⟩
  · intro name
    refine Eq.trans ?_ (h.tallied.active name)
    show part activeOf (mapValues _ state.names) name = _
    rw [part, lookup_mapValues, part]
    cases state.names.lookup name <;> rfl
  · exact total_mapValues.trans h.tallied.allActive
  · exact hzero createdOf fun _ _ => rfl
  · exact hzero exitedOf fun _ _ => rfl
  · show state.active.toNat + 0 = size state.tasks + 0
    rw [hactive]
  · show state.active.toNat + 0 ≤ n
    rw [hactive]
    exact h.tallied.few
  · exact le_rfl
  · exact hactive.ge
  · exact le_rfl
  · exact { h.labelled with names := h.labelled.names.mapValues, gaps := nodup_nil }

theorem Sound.exitAll : Sound n state.exitAll := by
  refine exitAll_induction (P := Sound n) (fun st k hst => hst.retireTask hn) ?_ h
  intro st hst _
  exact ⟨{ hst.tallied with }, { hst.balanced with }, { hst.labelled with }⟩

end

end

end

/-! ## A snapshot -/

/-- A state that a listing is being read into: nothing is created or ended yet. -/
structure Seeded (n : Nat) (state : ProcessState) : Prop where
  tallied : Tallied n state
  labelled : Labelled state
  created : state.created = 0
  exited : state.exited = 0
  provenance : state.baselineProvenance = .snapshot

/-- `n` task keys were handed out. -/
def Numbered (n : Nat) (s : TaskLifecycleStore) : Prop := s.nextTaskGeneration.toNat = min (n + 1) (2 ^ 64 - 1)

section
variable {n : Nat} {state : ProcessState} {s : TaskLifecycleStore}

theorem Numbered.nextTaskKey (h : Numbered n s) (hn : n + 1 < 2 ^ 64) {tid : UInt32} {startedAtNs : UInt64} :
    (s.nextTaskKey tid startedAtNs).1.generation.toNat = n + 1 ∧ Numbered (n + 1) (s.nextTaskKey tid startedAtNs).2 := by
  unfold Numbered at h
  refine ⟨?_, ?_⟩
  · show s.nextTaskGeneration.toNat = n + 1
    omega
  · show (max (saturatingAdd s.nextTaskGeneration 1) 1).toNat = _
    rw [toNat_max, toNat_saturatingAdd, UInt64.toNat_one]
    omega

theorem Seeded.addGap (h : Seeded n state) {reason : ThreadGapReason} : Seeded n (state.addGap reason) :=
  { h with tallied := { h.tallied with }, labelled := { h.labelled with gaps := h.labelled.gaps.insert } }

section
variable (h : Seeded n state) (hn : n + 1 < 2 ^ 64) (hk : k.generation.toNat = n + 1) (hname : validName name)
include h hn hk hname

theorem Seeded.countListed (hroom : HasRoom state.names name) : Seeded (n + 1) (countListed state k name) := by
  have hle := h.tallied.nameState_active_le name
  have hfew := h.tallied.few
  have hactive : ((state.nameState name).active + 1).toNat = (state.nameState name).active.toNat + 1 := by
    rw [UInt64.toNat_add, UInt64.toNat_one, Nat.mod_eq_of_lt (by omega)]
  have htallied : Tallied (n + 1) (TaskLifecycleStore.countListed state k name) :=
    h.tallied.put (Nat.le_succ n) (h.tallied.lookup_fresh (by omega)) hk.le (by omega) rfl rfl hactive ⟨rfl, rfl⟩
  exact { h with tallied := htallied, labelled := { h.labelled with names := h.labelled.names.insert hname hroom _ } }

theorem Seeded.seedTask : Seeded (n + 1) (seedTask state k name) := by
  obtain ⟨⟨overflow, hstate⟩, hvalid, hroom⟩ := bucketName_spec state hname
  have hbucket : Seeded n { state with overflow } :=
    { h with tallied := { h.tallied with }, labelled := { h.labelled with } }
  show Seeded (n + 1) (TaskLifecycleStore.countListed (state.bucketName name).2 k (state.bucketName name).1)
  rw [hstate]
  exact hbucket.countListed hn hk hvalid hroom

end

/-- Without control characters there is no NUL either. -/
theorem validName_of_snapshot (h : validSnapshotName name) : validName name := by
  rw [validSnapshotName, Bool.and_eq_true, Bool.and_eq_true, Bool.not_eq_true', any_eq_false] at h
  obtain ⟨⟨hne, hlen⟩, hcontrol⟩ := h
  have hnul : Text.contains name '\x00' = false := by
    rw [Text.contains, Bool.eq_false_iff]
    intro hmem
    exact hcontrol '\x00' (contains_iff_mem.mp hmem) (by decide)
  have hany : name.toList.any Text.isControl = false := any_eq_false.mpr hcontrol
  rw [validName, hne, hlen, hnul, hany]
  rfl

theorem Seeded.snapshotName (h : Seeded n state) {comm : Option String} : validName (snapshotName state comm).1 ∧
      Seeded n (snapshotName state comm).2 := by
  unfold TaskLifecycleStore.snapshotName
  split
  next hname => exact ⟨validName_of_snapshot (Option.filter_eq_some_iff.mp hname).2, h⟩
  next =>
    have hunknown : validName "unknown" := by decide
    exact ⟨hunknown, h.addGap⟩

theorem seedSnapshot_sound (key : ProcessKey) {entries : List SnapshotEntry} (hn : n + entries.length < 2 ^ 64)
    (hs : Numbered n s) (h : Seeded n state) :
    ∃ m, n ≤ m ∧ m ≤ n + entries.length ∧ Numbered m (seedSnapshot key entries s state).1 ∧
      Seeded m (seedSnapshot key entries s state).2 ∧ (seedSnapshot key entries s state).1.states = s.states := by
  induction entries generalizing n s state with
  | nil => exact ⟨n, le_rfl, le_rfl, hs, h, rfl⟩
  | cons entry _ ih =>
    rw [length_cons] at hn ⊢
    cases entry with
    | task tid =>
      rw [seedSnapshot]
      split
      · obtain ⟨m, hle, hm, hrest⟩ := ih (by omega) hs h
        exact ⟨m, hle, by omega, hrest⟩
      split
      · exact ⟨n, le_rfl, Nat.le_add_right _ _, hs, h.addGap, rfl⟩
      obtain ⟨hvalid, hnamed⟩ := h.snapshotName
      obtain ⟨hk, hs'⟩ := hs.nextTaskKey (by omega)
      have hseeded := hnamed.seedTask (by omega) hk hvalid
      obtain ⟨m, hle, hm, hnumbered, hst, hstates⟩ := ih (s := { (s.nextTaskKey tid 0).2 with
        taskIndex := s.taskIndex.insert (key.tgid, tid) (key, (s.nextTaskKey tid 0).1) }) (by omega) hs' hseeded
      exact ⟨m, by omega, by omega, hnumbered, hst, hstates⟩
    | _ =>
      obtain ⟨m, hle, hm, hrest⟩ := ih (by omega) hs h.addGap
      exact ⟨m, hle, by omega, hrest⟩

theorem Seeded.sound (h : Seeded n state) (hn : n < 2 ^ 64) :
    Sound n { state with
      activeAtStart := state.active
      peakActive := state.active
      baselineComplete := state.gaps.isEmpty } := by
  have hactive := toNat_active (h.tallied.few.trans_lt hn)
  refine ⟨{ h.tallied with }, ⟨?_, ?_, le_rfl, hactive.ge, ?_⟩, ?_⟩
  · rw [hactive, h.created, h.exited]
  · rw [hactive, h.created]
    exact h.tallied.few
  · exact Nat.le_add_right _ _
  · refine { h.labelled with complete := fun _ => ?_ }
    rw [h.provenance]
    decide

end

end Okoscope.Agent.TaskLifecycle
