import LoadTest.Proofs.Editor.Repeats
import LoadTest.Proofs.Editor.Returning
import Mathlib.Data.Set.Basic

/-!
Walks and rewrites meet the same blocks.

A visit takes the blocks of a test in the order of a walk, up to the first at which it stops.  A
rewrite asks about the blocks in the same order.  It leaves out what is below a block that it
replaces, and it does not look inside what it puts there (`traversals_agree`).
-/

namespace LoadTest
namespace Block

variable {σ : Type} {f : Block → StateM σ Rewrite} {S : Set BlockId}

/-- What a rewrite makes of its state when it is asked about a block. -/
def effect (f : Block → StateM σ Rewrite) (s : σ) (b : Block) : σ :=
  ((f b).run s).2

/-- The rewrite replaces the blocks that have an id in `S`, whatever it puts in their place, and
goes on inside every other block. -/
def Replaces (f : Block → StateM σ Rewrite) (S : Set BlockId) : Prop :=
  ∀ b s, ((f b).run s).1 = .descend ↔ b.id ∉ S

/-! ## Below what is replaced -/

/-- The blocks that a path leads through on its way to the last. -/
def above : Block → List Slot → List Block
  | _, [] => []
  | b, s :: path => b :: (b.child? s).elim [] fun c => c.above path

/-- The sites that are not strictly below a block with an id in `S`. -/
def exposed (S : Set BlockId) [DecidablePred (· ∈ S)] (b : Block) : List Site :=
  b.sites.filter fun x => ∀ y ∈ b.above x.path, y.id ∉ S

/-- The block itself is exposed, and what its slots hold is so unless the block is replaced. -/
theorem exposed_eq [DecidablePred (· ∈ S)] (b : Block) :
    b.exposed S = ⟨[], b⟩ :: if b.id ∈ S then [] else b.kind.slots.flatMap fun s =>
      (b.child? s).elim [] fun c => (c.exposed S).map (Site.under s) := by
  rw [exposed, sites_eq, List.filter_cons_of_pos (by simp [above]), List.filter_flatMap]
  refine congrArg (_ :: ·) ?_
  by_cases hb : b.id ∈ S
  · rw [if_pos hb, List.flatMap_eq_nil_iff]
    intro s _
    refine List.filter_eq_nil_iff.mpr fun x hx hout => ?_
    cases hc : b.child? s with
    | none =>
      rw [hc] at hx
      cases hx
    | some c =>
      rw [hc] at hx
      obtain ⟨y, -, rfl⟩ := List.mem_map.mp hx
      exact of_decide_eq_true hout b List.mem_cons_self hb
  · rw [if_neg hb]
    refine List.flatMap_congr fun s _ => ?_
    cases hc : b.child? s with
    | none => rfl
    | some c =>
      rw [sitesIn, List.filter_map, Option.elim_some, exposed]
      refine congrArg _ (List.filter_congr fun x _ => ?_)
      simp [Site.under, above, hc, hb]

/-! ## Rewrites -/

/-- The slots are rewritten in visit order. -/
theorem run_rewrite_snd (f : Block → StateM σ Rewrite) (b : Block) (s : σ) :
    ((b.rewrite f).run s).2 =
      b.kind.slots.foldl (fun s sl => ((rewriteSlot f (b.child? sl)).run s).2) s := by
  cases b <;> rfl

theorem run_rewriteSlot_of_descend {b : Block} {s : σ} (h : ((f b).run s).1 = .descend) :
    ((rewriteSlot f (some b)).run s).2 = ((b.rewrite f).run (effect f s b)).2 := by
  rw [rewriteSlot, StateT.run_bind, effect]
  cases hrun : (f b).run s with
  | mk r s' =>
    rw [hrun] at h
    cases h
    rfl

theorem run_rewriteSlot_of_ne_descend {b : Block} {s : σ} (h : ((f b).run s).1 ≠ .descend) :
    ((rewriteSlot f (some b)).run s).2 = effect f s b := by
  rw [rewriteSlot, StateT.run_bind, effect]
  cases hrun : (f b).run s with
  | mk r s' =>
    cases r with
    | descend => exact absurd (congrArg Prod.fst hrun) h
    | replace => rfl

/-- A rewrite asks about the blocks that are exposed and about no others. -/
theorem run_rewriteSlot_snd [DecidablePred (· ∈ S)] (hf : Replaces f S) (b : Block) (s : σ) :
    ((rewriteSlot f (some b)).run s).2 = ((b.exposed S).map Site.block).foldl (effect f) s := by
  induction b using childInduction generalizing s with
  | step b ih =>
    rw [exposed_eq, List.map_cons, List.foldl_cons]
    by_cases hb : b.id ∈ S
    · rw [run_rewriteSlot_of_ne_descend fun hd => (hf b s).mp hd hb, if_pos hb]
      rfl
    · rw [run_rewriteSlot_of_descend ((hf b s).mpr hb), if_neg hb, run_rewrite_snd,
        List.map_flatMap, List.foldl_flatMap]
      refine List.foldl_ext _ _ _ fun s' sl _ => ?_
      cases hc : b.child? sl with
      | none => rfl
      | some c =>
        rw [ih sl c hc, Option.elim_some, List.map_map]
        rfl

/-! ## Keeping a record -/

/-- The rewrite `f` with a record of the blocks that it is asked about. -/
def noting (f : Block → StateM σ Rewrite) (b : Block) : StateM (σ × List Block) Rewrite := do
  let (s, asked) ← get
  let (r, s) := (f b).run s
  set (s, asked ++ [b])
  return r

theorem replaces_noting (hf : Replaces f S) : Replaces (noting f) S :=
  fun b s => hf b s.1

theorem foldl_effect_noting (f : Block → StateM σ Rewrite) (s : σ) (asked l : List Block) :
    l.foldl (effect (noting f)) (s, asked) = (l.foldl (effect f) s, asked ++ l) := by
  induction l generalizing s asked with
  | nil => rw [List.foldl_nil, List.foldl_nil, List.append_nil]
  | cons b l ih =>
    have hb : effect (noting f) (s, asked) b = (effect f s b, asked ++ [b]) := rfl
    rw [List.foldl_cons, List.foldl_cons, hb, ih, List.append_assoc, List.singleton_append]

variable {β : Type}

/-- The visit `f` with a record of the blocks that it is shown, the one at which it stops among
them. -/
def noted (f : σ → Block → Except β σ) (x : σ × List Block) (b : Block) :
    Except (β × List Block) (σ × List Block) :=
  match f x.1 b with
  | .ok y => .ok (y, x.2 ++ [b])
  | .error e => .error (e, x.2 ++ [b])

theorem foldlM_noted_of_ok {f : σ → Block → Except β σ} {l : List Block} {x y : σ}
    (h : l.foldlM f x = .ok y) (shown : List Block) :
    l.foldlM (noted f) (x, shown) = .ok (y, shown ++ l) := by
  induction l generalizing x shown with
  | nil =>
    cases h
    rw [List.append_nil]
    rfl
  | cons b l ih =>
    rw [List.foldlM_cons] at h ⊢
    cases hb : f x b with
    | error e =>
      rw [hb] at h
      cases h
    | ok z =>
      rw [hb] at h
      have hstep : noted f (x, shown) b = .ok (z, shown ++ [b]) := by simp only [noted, hb]
      rw [hstep]
      refine (ih h (shown ++ [b])).trans ?_
      rw [List.append_assoc, List.singleton_append]

/-- A visit that stops has taken the blocks ahead of the one at which it stops. -/
theorem exists_of_foldlM_eq_error {f : σ → Block → Except β σ} {l : List Block} {x : σ} {e : β}
    (h : l.foldlM f x = .error e) :
    ∃ before b after y,
      l = before ++ b :: after ∧ before.foldlM f x = .ok y ∧ f y b = .error e := by
  induction l generalizing x with
  | nil => cases h
  | cons b l ih =>
    rw [List.foldlM_cons] at h
    cases hb : f x b with
    | error e' =>
      rw [hb] at h
      cases h
      exact ⟨[], b, l, x, rfl, rfl, hb⟩
    | ok z =>
      rw [hb] at h
      obtain ⟨before, c, after, y, rfl, hbefore, hc⟩ := ih h
      refine ⟨b :: before, c, after, y, rfl, ?_, hc⟩
      rw [List.foldlM_cons, hb]
      exact hbefore

theorem foldlM_of_stop {f : σ → Block → Except β σ} {before after : List Block} {b : Block}
    {x y : σ} {e : β} (hbefore : before.foldlM f x = .ok y) (hb : f y b = .error e) :
    (before ++ b :: after).foldlM f x = .error e := by
  rw [List.foldlM_append, hbefore]
  show (after.foldlM f =<< f y b) = .error e
  rw [hb]
  rfl

end Block

namespace Test

open Block (effect Replaces)

variable {σ : Type} {f : Block → StateM σ Rewrite} {S : Set BlockId} {t : Test}

/-! ## Rewrites of a test -/

/-- The blocks that a path leads through on its way to the last. -/
def above (t : Test) (k : Nat) (path : List Slot) : List Block :=
  t.roots[k]?.elim [] fun r => r.block.above path

/-- The blocks that are not strictly below a block with an id in `S`, in the order of a walk. -/
def exposed (S : Set BlockId) [DecidablePred (· ∈ S)] (t : Test) : List Block :=
  (t.sites.filter fun x : Address × Block => ∀ y ∈ t.above x.1.root x.1.path, y.id ∉ S).map Prod.snd

theorem exposed_eq_flatMap [DecidablePred (· ∈ S)] (t : Test) :
    t.exposed S = t.roots.flatMap fun r => (r.block.exposed S).map Block.Site.block := by
  have hroot : ∀ r ∈ t.roots.zipIdx,
      (((r.1.block.sites.map fun x => ((⟨r.2, x.path⟩ : Address), x.block)).filter
        fun x : Address × Block => ∀ y ∈ t.above x.1.root x.1.path, y.id ∉ S).map Prod.snd) =
        (r.1.block.exposed S).map Block.Site.block := by
    intro r hr
    have hget : t.roots[r.2]? = some r.1 := List.mem_zipIdx_iff_getElem?.mp hr
    rw [List.filter_map, List.map_map, Block.exposed]
    refine congrArg _ (List.filter_congr fun x _ => ?_)
    simp [above, hget]
  rw [exposed, sites, List.filter_flatMap, List.map_flatMap, List.flatMap_congr hroot,
    ← List.flatMap_map Prod.fst fun r : Root => (r.block.exposed S).map Block.Site.block,
    List.zipIdx_map_fst]

theorem exposed_empty (t : Test) : t.exposed ∅ = t.blocks := by
  rw [exposed, List.filter_eq_self.mpr (by simp), map_snd_sites]

theorem run_rewriteRoots_snd (f : Block → StateM σ Rewrite) (rs : List Root) (s : σ) :
    ((rewriteRoots f rs).run s).2 =
      rs.foldl (fun s r => ((Block.rewriteSlot f (some r.block)).run s).2) s := by
  induction rs generalizing s with
  | nil => rfl
  | cons r rs ih =>
    rw [rewriteRoots, StateT.run_bind, List.foldl_cons]
    cases hrun : (Block.rewriteSlot f (some r.block)).run s with
    | mk x s' =>
      cases x with
      | none => exact ih s'
      | some b => exact ih s'

/-- A rewrite asks about the blocks that are exposed and about no others. -/
theorem run_rewrite_snd [DecidablePred (· ∈ S)] (hf : Replaces f S) (t : Test) (s : σ) :
    ((t.rewrite f).run s).2 = (t.exposed S).foldl (effect f) s := by
  have hroots : ((t.rewrite f).run s).2 = ((rewriteRoots f t.roots).run s).2 := rfl
  rw [hroots, run_rewriteRoots_snd, exposed_eq_flatMap, List.foldl_flatMap]
  refine List.foldl_ext _ _ _ fun s' r _ => ?_
  exact Block.run_rewriteSlot_snd hf r.block s'

/-- A rewrite that goes on inside every block changes nothing. -/
theorem run_rewrite_fst (hf : ∀ b s, ((f b).run s).1 = .descend) (t : Test) (s : σ) :
    ((t.rewrite f).run s).1 = t := by
  rw [run_rewrite (g := fun _ => .descend) hf]
  exact alter_of_keeps fun _ _ => Or.inl rfl

/-- The blocks that a rewrite asks `f` about, in order. -/
def asked (t : Test) (f : Block → StateM σ Rewrite) (s : σ) : List Block :=
  ((t.rewrite (Block.noting f)).run (s, [])).2.2

theorem asked_eq [DecidablePred (· ∈ S)] (hf : Replaces f S) (t : Test) (s : σ) :
    t.asked f s = t.exposed S := by
  rw [asked, run_rewrite_snd (Block.replaces_noting hf), Block.foldl_effect_noting, List.nil_append]

/-! ## Visits of a test -/

variable {β : Type}

/-- The blocks that a visit shows to `f`, in order. -/
def visited (t : Test) (f : σ → Block → Except β σ) (x : σ) : List Block :=
  match t.visit (Block.noted f) (x, []) with
  | .ok y => y.2
  | .error e => e.2

theorem visited_of_ok {f : σ → Block → Except β σ} {x y : σ} (h : t.visit f x = .ok y) :
    t.visited f x = t.blocks := by
  rw [visit_eq_foldlM] at h
  rw [visited, visit_eq_foldlM, Block.foldlM_noted_of_ok h, List.nil_append]

theorem visited_of_stop {f : σ → Block → Except β σ} {x y : σ} {e : β} {before after : List Block}
    {b : Block} (hblocks : t.blocks = before ++ b :: after) (hbefore : before.foldlM f x = .ok y)
    (hb : f y b = .error e) : t.visited f x = before ++ [b] := by
  have hstop : Block.noted f (y, [] ++ before) b = .error (e, [] ++ before ++ [b]) := by
    simp only [Block.noted, hb]
  rw [visited, visit_eq_foldlM, hblocks,
    Block.foldlM_of_stop (Block.foldlM_noted_of_ok hbefore []) hstop, List.nil_append]

/-! ## Both -/

/-- Walks and rewrites take the blocks in the same order.  A rewrite that goes on inside every block
changes nothing and asks about all blocks, and what it does to its state a visit does as well.  A
rewrite that replaces the blocks with certain ids asks about the blocks that are not strictly below
one of these, whatever it puts in.  A visit that stops has met the blocks up to the first at which
it stops. -/
theorem traversals_agree (t : Test) :
    (∀ (σ : Type) (f : Block → StateM σ Rewrite) (s : σ), (∀ b s, ((f b).run s).1 = .descend) →
      ((t.rewrite f).run s).1 = t ∧ t.asked f s = t.blocks ∧
        t.visit (fun s b => (.ok (effect f s b) : Except Unit σ)) s = .ok ((t.rewrite f).run s).2) ∧
    (∀ (σ : Type) (f : Block → StateM σ Rewrite) (S : Set BlockId) [DecidablePred (· ∈ S)] (s : σ),
      Replaces f S → t.asked f s = t.exposed S ∧ (t.exposed S).Sublist t.blocks ∧
        ((t.rewrite f).run s).2 = (t.exposed S).foldl (effect f) s) ∧
    ∀ (σ β : Type) (f : σ → Block → Except β σ) (x : σ),
      (∀ y, t.visit f x = .ok y → t.visited f x = t.blocks) ∧
      ∀ e, t.visit f x = .error e ↔ ∃ before b after y, t.blocks = before ++ b :: after ∧
        before.foldlM f x = .ok y ∧ f y b = .error e ∧ t.visited f x = before ++ [b] := by
  refine ⟨fun σ f s hf => ?_, fun σ f S _ s hf => ?_,
    fun σ β f x => ⟨fun y => visited_of_ok, fun e => ?_⟩⟩
  · have hall : Replaces f ∅ := fun b s => iff_of_true (hf b s) (Set.notMem_empty b.id)
    refine ⟨run_rewrite_fst hf t s, ?_, ?_⟩
    · rw [asked_eq hall, exposed_empty]
    · rw [run_rewrite_snd hall, exposed_empty, visit_eq_foldlM]
      exact List.foldlM_pure
  · exact ⟨asked_eq hf t s, t.map_snd_sites ▸ List.filter_sublist.map Prod.snd,
      run_rewrite_snd hf t s⟩
  · rw [visit_eq_foldlM]
    constructor
    · intro h
      obtain ⟨before, b, after, y, hblocks, hbefore, hb⟩ := Block.exists_of_foldlM_eq_error h
      exact ⟨before, b, after, y, hblocks, hbefore, hb, visited_of_stop hblocks hbefore hb⟩
    · rintro ⟨before, b, after, y, hblocks, hbefore, hb, -⟩
      rw [hblocks]
      exact Block.foldlM_of_stop hbefore hb

/-- The group in the check is replaced by one with its id and another block of its id inside; a
visit that would stop at the sleep or in the group stops at the sleep. -/
theorem traversals_agree_misfit :
    let keep : Block → StateM (List BlockId) Rewrite := fun b => do
      set ((← get) ++ [b.id])
      return .descend
    let swap : Block → StateM (List BlockId) Rewrite := fun b => do
      set ((← get) ++ [b.id])
      return if b.id = "g" then .replace (some (.group "g" "" (some (.newGroup "g" "")) none))
        else .descend
    let stop : Nat → Block → Except BlockId Nat := fun n b =>
      if b.id ∈ ["z", "a"] then .error b.id else .ok (n + 1)
    (∀ b s, ((keep b).run s).1 = .descend) ∧ ((misfit.rewrite keep).run []).1 = misfit ∧
      (misfit.asked keep []).map Block.id = ["p", "s", "c", "z", "g", "a", "b", "q"] ∧
      Replaces swap {i | i = "g"} ∧
      (misfit.asked swap []).map Block.id = ["p", "s", "c", "z", "g", "q"] ∧
      ((misfit.rewrite swap).run []).2 = ["p", "s", "c", "z", "g", "q"] ∧
      misfit.visit stop 0 = .error "z" ∧ ∃ before b after y,
        misfit.blocks = before ++ b :: after ∧ before.foldlM stop 0 = .ok y ∧
          stop y b = .error "z" ∧ misfit.visited stop 0 = before ++ [b] := by
  intro keep swap stop
  have hkeep : ∀ b s, ((keep b).run s).1 = .descend := fun _ _ => rfl
  have hswap : Replaces swap {i | i = "g"} := by
    intro b s
    show (if b.id = "g" then _ else Rewrite.descend) = .descend ↔ ¬ b.id = "g"
    by_cases hb : b.id = "g" <;> simp [hb]
  have hstop : misfit.visit stop 0 = .error "z" := rfl
  obtain ⟨hdescends, hreplaces, hstops⟩ := traversals_agree misfit
  obtain ⟨hresult, hall, -⟩ := hdescends _ keep [] hkeep
  obtain ⟨hasked, -, hstate⟩ := hreplaces _ swap {i | i = "g"} [] hswap
  refine ⟨hkeep, hresult, ?_, hswap, ?_, ?_, hstop, ((hstops _ _ stop 0).2 "z").mp hstop⟩
  · rw [hall]
    rfl
  · rw [hasked]
    decide
  · rw [hstate]
    decide

end Test
end LoadTest
