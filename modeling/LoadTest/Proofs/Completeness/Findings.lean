import LoadTest.Completeness
import LoadTest.Proofs.Block.Tree
import Mathlib.Data.List.Perm.Subperm

/-!
What a reading of a test comes across.

That does not depend on what was read before: `scenarioFindings` lists it for a tree, and the
progress of a reading is the fold over that list.  As long as all ids are new the issues are those
of the findings, and an id that is not new leaves an issue in any case.
-/

namespace LoadTest
namespace Completeness

/-- Something that a reading comes across. -/
inductive Finding where
  /-- A block, with the issue that is reported of it if its id is new. -/
  | met (id : BlockId) (defect : Option Issue)
  | defect (i : Issue)

/-- The progress after one finding. -/
def note (p : Progress) : Finding → Progress
  | .met id d =>
    if p.seen.contains id then
      if p.reported.contains id then p
      else { p with issues := p.issues ++ [.duplicateId id], reported := id :: p.reported }
    else { p with issues := p.issues ++ d.toList, seen := id :: p.seen }
  | .defect i => { p with issues := p.issues ++ [i] }

def noteAll (p : Progress) (fs : List Finding) : Progress :=
  fs.foldl note p

theorem noteAll_append (p : Progress) (fs gs : List Finding) :
    noteAll p (fs ++ gs) = noteAll (noteAll p fs) gs :=
  List.foldl_append

/-- The ids of the blocks among the findings. -/
def metIds (fs : List Finding) : List BlockId :=
  fs.filterMap fun f => match f with
    | .met id _ => some id
    | .defect _ => none

@[simp] theorem metIds_nil : metIds [] = [] := rfl

@[simp] theorem metIds_met (id : BlockId) (d : Option Issue) (fs : List Finding) :
    metIds (.met id d :: fs) = id :: metIds fs := rfl

@[simp] theorem metIds_defect (i : Issue) (fs : List Finding) :
    metIds (.defect i :: fs) = metIds fs := rfl

@[simp] theorem metIds_append (fs gs : List Finding) :
    metIds (fs ++ gs) = metIds fs ++ metIds gs :=
  List.filterMap_append

theorem mem_seen_noteAll {p : Progress} {fs : List Finding} {i : BlockId} :
    i ∈ (noteAll p fs).seen ↔ i ∈ metIds fs ∨ i ∈ p.seen := by
  induction fs generalizing p with
  | nil => simp [noteAll]
  | cons f fs ih =>
    rw [noteAll, List.foldl_cons, ← noteAll, ih]
    cases f with
    | defect j => simp [note]
    | met j d =>
      simp only [note, metIds_met, List.mem_cons]
      split
      · next hj =>
        have hmem : j ∈ p.seen := by simpa using hj
        split <;> grind
      · simp only [List.mem_cons]
        tauto

/-! ## Ids that are new -/

/-- Ids that differ and were not seen before. -/
def AllNew (seen ids : List BlockId) : Prop :=
  ids.Nodup ∧ ∀ i ∈ ids, i ∉ seen

instance (seen ids : List BlockId) : Decidable (AllNew seen ids) :=
  inferInstanceAs (Decidable (ids.Nodup ∧ ∀ i ∈ ids, i ∉ seen))

theorem allNew_append {p : Progress} {fs gs : List Finding} :
    AllNew p.seen (metIds (fs ++ gs)) ↔
      AllNew p.seen (metIds fs) ∧ AllNew (noteAll p fs).seen (metIds gs) := by
  simp only [AllNew, metIds_append, List.nodup_append, List.mem_append, mem_seen_noteAll, not_or]
  grind

theorem allNew_met {p : Progress} {id : BlockId} {d : Option Issue} {fs : List Finding} :
    AllNew p.seen (metIds (.met id d :: fs)) ↔
      id ∉ p.seen ∧ AllNew (note p (.met id d)).seen (metIds fs) := by
  have h := @allNew_append p [.met id d] fs
  rw [List.singleton_append] at h
  rw [h, noteAll, List.foldl_cons, List.foldl_nil]
  simp [AllNew]

/-! ## Issues -/

/-- The issue that a finding is, whatever its id. -/
def Finding.issue? : Finding → Option Issue
  | .met _ d => d
  | .defect i => some i

def issues (fs : List Finding) : List Issue :=
  fs.filterMap Finding.issue?

@[simp] theorem issues_nil : issues [] = [] := rfl

@[simp] theorem issues_met (id : BlockId) (d : Option Issue) (fs : List Finding) :
    issues (.met id d :: fs) = d.toList ++ issues fs := by
  cases d <;> rfl

@[simp] theorem issues_defect (i : Issue) (fs : List Finding) :
    issues (.defect i :: fs) = i :: issues fs := rfl

@[simp] theorem issues_append (fs gs : List Finding) :
    issues (fs ++ gs) = issues fs ++ issues gs :=
  List.filterMap_append

/-- As long as all ids are new, the issues are those of the findings. -/
theorem issues_noteAll_of_allNew {p : Progress} {fs : List Finding}
    (h : AllNew p.seen (metIds fs)) : (noteAll p fs).issues = p.issues ++ issues fs := by
  induction fs generalizing p with
  | nil => simp [noteAll]
  | cons f fs ih =>
    rw [noteAll, List.foldl_cons, ← noteAll]
    cases f with
    | defect i => rw [ih (by exact h)]; simp [note]
    | met id d =>
      obtain ⟨hid, hfs⟩ := allNew_met.mp h
      rw [ih hfs]
      simp [note, hid]

theorem issues_noteAll_ne_nil_of_issues {p : Progress} (fs : List Finding) (h : p.issues ≠ []) :
    (noteAll p fs).issues ≠ [] := by
  induction fs generalizing p with
  | nil => exact h
  | cons f fs ih =>
    refine ih ?_
    cases f with
    | defect i => simp [note]
    | met id d =>
      simp only [note]
      split
      · split
        · exact h
        · simp
      · simp [h]

/-- An id that is not new leaves an issue, its own or the one with which it was reported before. -/
theorem issues_noteAll_ne_nil {p : Progress} {fs : List Finding}
    (hp : p.reported ≠ [] → p.issues ≠ []) (h : ¬ AllNew p.seen (metIds fs)) :
    (noteAll p fs).issues ≠ [] := by
  induction fs generalizing p with
  | nil => exact absurd (by simp [AllNew]) h
  | cons f fs ih =>
    cases f with
    | defect i => exact issues_noteAll_ne_nil_of_issues fs (by simp [note])
    | met id d =>
      rw [allNew_met, not_and] at h
      by_cases hid : id ∈ p.seen
      · refine issues_noteAll_ne_nil_of_issues fs ?_
        by_cases hreported : id ∈ p.reported
        · simpa [note, hid, hreported] using hp (List.ne_nil_of_mem hreported)
        · simp [note, hid, hreported]
      · refine ih ?_ (h hid)
        simp only [note, List.contains_iff_mem, hid, if_false]
        exact fun hr => by simp [hp hr]

/-! ## What there is to find -/

def targetFindings (check : BlockId) : Option Block → List Finding
  | none => [.defect (.missingCheckTarget check)]
  | some (.request id _ next) =>
    [.met id (if next.isSome then some (.chainedTarget check id) else none)]
  | some b => [.defect (.wrongSlotKind check .target b.kind)]

def executorFindings (scenario : BlockId) : Option Block → List Finding
  | none => [.defect (.missingExecutor scenario)]
  | some (.executor id shape) =>
    [.met id (if shape.isStageless then some (.emptyStages id) else none)]
  | some b => [.defect (.wrongSlotKind scenario .executor b.kind)]

mutual

def stepFindings : Block → List Finding
  | .group id _ s n => .met id none :: (chainFindings id .step s ++ chainFindings id .next n)
  | .request id _ n | .library id _ n | .sleep id _ n => .met id none :: chainFindings id .next n
  | .check id _ t n => .met id none :: (targetFindings id t ++ chainFindings id .next n)
  | .scenario .. | .executor .. => []

def chainFindings (owner : BlockId) (slot : Slot) : Option Block → List Finding
  | none => []
  | some b =>
    if slot.accepts b.kind then stepFindings b else [.defect (.wrongSlotKind owner slot b.kind)]

end

def scenarioFindings : Block → List Finding
  | .scenario id _ e s => .met id none :: (executorFindings id e ++ chainFindings id .step s)
  | _ => []

/-! ## No block is met twice -/

open Block (walkSlot)

theorem metIds_targetFindings (check : BlockId) (t : Option Block) :
    (metIds (targetFindings check t)).Subperm ((walkSlot t).map Block.id) := by
  cases t with
  | none => exact List.nil_subperm
  | some b =>
    cases b with
    | request id r n => exact (List.subperm_cons id).mpr List.nil_subperm
    | _ => exact List.nil_subperm

theorem metIds_executorFindings (scenario : BlockId) (e : Option Block) :
    (metIds (executorFindings scenario e)).Subperm ((walkSlot e).map Block.id) := by
  cases e with
  | none => exact List.nil_subperm
  | some b =>
    cases b with
    | executor id shape => exact List.Subperm.refl _
    | _ => exact List.nil_subperm

mutual

theorem metIds_stepFindings : ∀ b : Block, (metIds (stepFindings b)).Subperm b.ids
  | .group id _ s n => by
    rw [stepFindings, metIds_met, metIds_append, Block.ids, Block.walk, List.map_cons,
      List.map_append]
    refine (List.subperm_cons id).mpr ?_
    exact (metIds_chainFindings id .step s).append (metIds_chainFindings id .next n)
  | .request id _ n | .library id _ n | .sleep id _ n => by
    rw [stepFindings, metIds_met, Block.ids, Block.walk, List.map_cons]
    exact (List.subperm_cons id).mpr (metIds_chainFindings id .next n)
  | .check id _ t n => by
    rw [stepFindings, metIds_met, metIds_append, Block.ids, Block.walk, List.map_cons,
      List.map_append]
    refine (List.subperm_cons id).mpr ?_
    -- A walk looks at what comes next before it looks at the target.
    exact ((metIds_targetFindings id t).append (metIds_chainFindings id .next n)).trans
      List.perm_append_comm.subperm
  | .scenario .. | .executor .. => by
    rw [stepFindings]
    exact List.nil_subperm

theorem metIds_chainFindings (owner : BlockId) (slot : Slot) : ∀ x : Option Block,
    (metIds (chainFindings owner slot x)).Subperm ((walkSlot x).map Block.id)
  | none => by
    rw [chainFindings]
    exact List.nil_subperm
  | some b => by
    rw [chainFindings]
    split
    · exact metIds_stepFindings b
    · exact List.nil_subperm

end

theorem metIds_scenarioFindings (b : Block) : (metIds (scenarioFindings b)).Subperm b.ids := by
  cases b with
  | scenario id name e s =>
    rw [scenarioFindings, metIds_met, metIds_append, Block.ids, Block.walk, List.map_cons,
      List.map_append]
    refine (List.subperm_cons id).mpr ?_
    exact (metIds_executorFindings id e).append (metIds_chainFindings id .step s)
  | _ => exact List.nil_subperm

end Completeness
end LoadTest
