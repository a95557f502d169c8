import LoadTest.Block.Build
import LoadTest.Proofs.Block.Spine

/-!
Chains as lists.

Joining two chains of steps appends their lists of blocks, and so does linking the blocks of two
lists (`joining_laws`).  Of a block in a chain nothing changes but what its `next` slot holds.
-/

namespace LoadTest
namespace Block

/-- The block outside of its chain: its own fields and its other slots. -/
def unlinked (b : Block) : Block :=
  b.setChild .next none

theorem unlinked_setChild (b : Block) (c : Option Block) :
    (b.setChild .next c).unlinked = b.unlinked :=
  setChild_setChild b .next c none

/-- A step that is not linked to another block. -/
structure Single (b : Block) : Prop where
  isStep : b.kind.isStep = true
  next : b.child? .next = none

theorem Single.unlinked_eq {b : Block} (h : b.Single) : b.unlinked = b := by
  rw [unlinked, ← h.next, setChild_child?]

theorem child?_next_setChild {b : Block} (h : b.kind.isStep = true) (c : Option Block) :
    (b.setChild .next c).child? .next = c :=
  child?_setChild_self (by rw [Kind.hasSlot_next, h]) c

theorem spine_setChild_next {b : Block} (h : b.kind.isStep = true) (c : Option Block) :
    (b.setChild .next c).spine = b.setChild .next c :: spineSlot c := by
  rw [spine_eq, child?_next_setChild h]

/-! ## Joining -/

theorem concat_of_next_eq_none {b : Block} (h : b.kind.isStep = true)
    (hnext : b.child? .next = none) (tail : Block) :
    b.concat tail = .ok (b.setChild .next (some tail)) := by
  rw [concat_of_isStep h, hnext]
  rfl

theorem concat_of_next_eq_some {b c tail joined : Block} (h : b.kind.isStep = true)
    (hnext : b.child? .next = some c) (hc : c.concat tail = .ok joined) :
    b.concat tail = .ok (b.setChild .next (some joined)) := by
  rw [concat_of_isStep h, hnext, concatNext, hc]
  rfl

/-- A chain of steps can be joined with any chain, and the blocks of both follow each other. -/
theorem OnlySteps.exists_concat_spine {b : Block} (h : b.OnlySteps) (tail : Block) :
    ∃ joined front, b.concat tail = .ok joined ∧ joined.spine = front ++ tail.spine ∧
      front.map unlinked = b.spine.map unlinked := by
  induction b using childInduction with
  | step b ih =>
    obtain ⟨hb, hsteps⟩ := onlySteps_iff.mp h
    cases hnext : b.child? .next with
    | none =>
      refine ⟨_, [b.setChild .next (some tail)], concat_of_next_eq_none hb hnext tail, ?_, ?_⟩
      · rw [spine_setChild_next hb, spineSlot, List.singleton_append]
      · rw [spine_eq, hnext, spineSlot, List.map_singleton, List.map_singleton, unlinked_setChild]
    | some c =>
      obtain ⟨joined, front, hjoined, hspine, hfront⟩ := ih .next c hnext (hsteps c hnext)
      refine ⟨_, b.setChild .next (some joined) :: front,
        concat_of_next_eq_some hb hnext hjoined, ?_, ?_⟩
      · rw [spine_setChild_next hb, spineSlot, hspine, List.cons_append]
      · rw [spine_eq b, hnext, spineSlot, List.map_cons, List.map_cons, unlinked_setChild, hfront]

/-- Of three chains it does not matter which two are joined first. -/
theorem OnlySteps.concat_assoc {a b c bc : Block} (h : a.OnlySteps) (hbc : b.concat c = .ok bc) :
    ∃ ab abc, a.concat b = .ok ab ∧ ab.concat c = .ok abc ∧ a.concat bc = .ok abc := by
  induction a using childInduction with
  | step a ih =>
    obtain ⟨ha, hsteps⟩ := onlySteps_iff.mp h
    have hlinked : ∀ x, (a.setChild .next x).kind.isStep = true := fun x => by
      rw [kind_setChild, ha]
    cases hnext : a.child? .next with
    | none =>
      refine ⟨_, a.setChild .next (some bc), concat_of_next_eq_none ha hnext b, ?_,
        concat_of_next_eq_none ha hnext bc⟩
      rw [concat_of_next_eq_some (hlinked _) (child?_next_setChild ha _) hbc, setChild_setChild]
    | some n =>
      obtain ⟨nb, nbc, hnb, hleft, hright⟩ := ih .next n hnext (hsteps n hnext)
      refine ⟨_, a.setChild .next (some nbc), concat_of_next_eq_some ha hnext hnb, ?_,
        concat_of_next_eq_some ha hnext hright⟩
      rw [concat_of_next_eq_some (hlinked _) (child?_next_setChild ha _) hleft, setChild_setChild]

/-! ## Linking -/

theorem spineSlot_chain {bs : List Block} (h : ∀ b ∈ bs, b.Single) :
    (spineSlot (chain bs)).map unlinked = bs := by
  induction bs with
  | nil => rfl
  | cons b bs ih =>
    have hb := h b List.mem_cons_self
    have hbs := ih fun x hx => h x (List.mem_cons_of_mem b hx)
    rw [chain_cons]
    cases hchain : chain bs with
    | none =>
      rw [hchain, spineSlot, List.map_nil] at hbs
      rw [link, spineSlot, spine_eq, hb.next, spineSlot, List.map_singleton, hb.unlinked_eq, ← hbs]
    | some tail =>
      rw [hchain, spineSlot] at hbs
      rw [link, withChild, spineSlot, spine_setChild_next hb.isStep, spineSlot, List.map_cons,
        unlinked_setChild, hb.unlinked_eq, hbs]

theorem exists_chain_of_ne_nil {bs : List Block} (h : bs ≠ []) : ∃ head, chain bs = some head := by
  cases bs with
  | nil => exact absurd rfl h
  | cons b bs =>
    rw [chain_cons]
    cases chain bs <;> exact ⟨_, rfl⟩

/-- The chain of two lists of steps is that of the first joined with that of the second. -/
theorem chain_append {xs ys : List Block} (hxs : ∀ b ∈ xs, b.Single) (hne : xs ≠ []) {y : Block}
    (hy : chain ys = some y) :
    ∃ x joined, chain xs = some x ∧ x.concat y = .ok joined ∧
      chain (xs ++ ys) = some joined := by
  induction xs with
  | nil => exact absurd rfl hne
  | cons b xs ih =>
    have hb := hxs b List.mem_cons_self
    rw [List.cons_append, chain_cons, chain_cons]
    cases xs with
    | nil =>
      refine ⟨b, _, rfl, concat_of_next_eq_none hb.isStep hb.next y, ?_⟩
      rw [List.nil_append, hy, link, withChild]
    | cons b' xs =>
      obtain ⟨x, joined, hx, hjoined, hall⟩ :=
        ih (fun c hc => hxs c (List.mem_cons_of_mem b hc)) (List.cons_ne_nil b' xs)
      have hlinked : (b.setChild .next (some x)).kind.isStep = true := by
        rw [kind_setChild, hb.isStep]
      refine ⟨b.setChild .next (some x), b.setChild .next (some joined), ?_, ?_, ?_⟩
      · rw [hx, link, withChild]
      · rw [concat_of_next_eq_some hlinked (child?_next_setChild hb.isStep _) hjoined,
          setChild_setChild]
      · rw [hall, link, withChild]

/-- Joining chains of steps is appending lists: no block is lost, and none changes but for the
block that it is linked to. -/
theorem joining_laws :
    (∀ head tail : Block, head.OnlySteps →
        ∃ joined front, head.concat tail = .ok joined ∧ joined.spine = front ++ tail.spine ∧
          front.map unlinked = head.spine.map unlinked) ∧
      (∀ a b c : Block, a.OnlySteps → b.OnlySteps →
        ∃ ab bc abc, a.concat b = .ok ab ∧ b.concat c = .ok bc ∧ ab.concat c = .ok abc ∧
          a.concat bc = .ok abc) ∧
      ∀ xs ys : List Block, xs ≠ [] → ys ≠ [] → (∀ b ∈ xs ++ ys, b.Single) →
        ∃ x y joined, chain xs = some x ∧ chain ys = some y ∧ x.concat y = .ok joined ∧
          chain (xs ++ ys) = some joined ∧ joined.spine.map unlinked = xs ++ ys := by
  refine ⟨fun head tail h => h.exists_concat_spine tail, fun a b c ha hb => ?_,
    fun xs ys hxs hys h => ?_⟩
  · obtain ⟨bc, -, hbc, -⟩ := hb.exists_concat_spine c
    obtain ⟨ab, abc, hab, hleft, hright⟩ := ha.concat_assoc hbc
    exact ⟨ab, bc, abc, hab, hbc, hleft, hright⟩
  · obtain ⟨y, hy⟩ := exists_chain_of_ne_nil hys
    obtain ⟨x, joined, hx, hjoined, hall⟩ :=
      chain_append (fun b hb => h b (List.mem_append_left ys hb)) hxs hy
    refine ⟨x, y, joined, hx, hy, hjoined, hall, ?_⟩
    have hspine := spineSlot_chain h
    rwa [hall, spineSlot] at hspine

/-- A group and a check, each with a request of its own, and a request at the end. -/
theorem joining_laws_checked :
    let group := Block.group "g" "cart" (some (newRequest "r" "get" "/cart")) none
    let check := Block.check "c" [.status "e" 200] (some (newRequest "q" "get" "/")) none
    let last := newRequest "l" "post" "/"
    let head := Block.group "g" "cart" (some (newRequest "r" "get" "/cart")) (some check)
    head.OnlySteps ∧ last.OnlySteps ∧ (∀ b ∈ [group] ++ [check, last], b.Single) ∧
      (∃ joined front, head.concat last = .ok joined ∧ joined.spine = front ++ last.spine ∧
        front.map unlinked = head.spine.map unlinked) ∧
      (∃ ab bc abc, head.concat last = .ok ab ∧ last.concat head = .ok bc ∧
        ab.concat head = .ok abc ∧ head.concat bc = .ok abc) ∧
      ∃ x y joined, chain [group] = some x ∧ chain [check, last] = some y ∧
        x.concat y = .ok joined ∧ chain ([group] ++ [check, last]) = some joined ∧
        joined.spine.map unlinked = [group] ++ [check, last] := by
  intro group check last head
  have hhead : head.OnlySteps := by
    simp [OnlySteps, head, check, spine, spineSlot, kind, Kind.isStep]
  have hlast : last.OnlySteps := by
    simp [OnlySteps, last, newRequest, spine, spineSlot, kind, Kind.isStep]
  have hsingle : ∀ b ∈ [group] ++ [check, last], b.Single := by
    simp only [List.singleton_append, List.forall_mem_cons]
    exact ⟨⟨rfl, rfl⟩, ⟨rfl, rfl⟩, ⟨rfl, rfl⟩, List.forall_mem_nil _⟩
  obtain ⟨hjoin, hassoc, hlink⟩ := joining_laws
  exact ⟨hhead, hlast, hsingle, hjoin head last hhead, hassoc head last head hhead hlast,
    hlink [group] [check, last] (by simp) (by simp) hsingle⟩

end Block
end LoadTest
