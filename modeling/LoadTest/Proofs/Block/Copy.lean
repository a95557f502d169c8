import LoadTest.Template
import LoadTest.Proofs.Block.Tree
import Mathlib.Tactic.Common

/-!
Copies with fresh ids: the ids are the next ones of the supply, in the order of a walk, and
everything else is as it was.
-/

namespace LoadTest

namespace Supply

/-- The next `n` ids. -/
def upcoming (s : Supply) (n : Nat) : List String :=
  (List.range n).map fun k => s.id (s.used + k)

/-- The supply after `n` ids have been drawn. -/
def skip (s : Supply) (n : Nat) : Supply :=
  { s with used := s.used + n }

@[simp] theorem skip_zero (s : Supply) : s.skip 0 = s := rfl

theorem skip_skip (s : Supply) (m n : Nat) : (s.skip m).skip n = s.skip (m + n) := by
  simp [skip, Nat.add_assoc]

@[simp] theorem upcoming_zero (s : Supply) : s.upcoming 0 = [] := rfl

theorem upcoming_one (s : Supply) : s.upcoming 1 = [s.id s.used] := rfl

theorem upcoming_add (s : Supply) (m n : Nat) :
    s.upcoming (m + n) = s.upcoming m ++ (s.skip m).upcoming n := by
  simp [upcoming, skip, List.range_add, List.map_map, Function.comp_def, Nat.add_assoc]

end Supply

namespace Block

mutual

/-- The block with every id in it left empty. -/
def anonymous : Block → Block
  | scenario _ name e s => scenario "" name (anonymousSlot e) (anonymousSlot s)
  | group _ name s n => group "" name (anonymousSlot s) (anonymousSlot n)
  | request _ r n => request "" r (anonymousSlot n)
  | library _ call n => library "" call (anonymousSlot n)
  | check _ es t n => check "" es (anonymousSlot t) (anonymousSlot n)
  | executor _ shape => executor "" shape
  | sleep _ x n => sleep "" x (anonymousSlot n)

def anonymousSlot : Option Block → Option Block
  | none => none
  | some b => some b.anonymous

end

@[simp] theorem kind_anonymous (b : Block) : b.anonymous.kind = b.kind := by
  cases b <;> simp [anonymous, kind]

theorem child?_anonymous (b : Block) (s : Slot) :
    b.anonymous.child? s = anonymousSlot (b.child? s) := by
  cases b <;> cases s <;> simp [anonymous, child?, anonymousSlot]

theorem typed_iff_child? {b : Block} :
    b.Typed ↔ ∀ s c, b.child? s = some c → s.accepts c.kind = true ∧ c.Typed := by
  constructor
  · intro h s c hc
    exact ⟨h.accepts hc, h.of_child? hc⟩
  · intro h o ho s c hc
    rcases mem_walk.mp ho with rfl | ⟨s', d, hd, ho⟩
    · exact (h s c hc).1
    · exact (h s' d hd).2 o ho s c hc

/-- Ids have no part in the typing of slots. -/
theorem typed_anonymous {b : Block} : b.anonymous.Typed ↔ b.Typed := by
  induction b using childInduction with
  | step b ih =>
    rw [typed_iff_child?, typed_iff_child?]
    constructor
    · intro h s c hc
      have hanon : b.anonymous.child? s = some c.anonymous := by
        rw [child?_anonymous, hc, anonymousSlot]
      obtain ⟨hkind, htyped⟩ := h s c.anonymous hanon
      exact ⟨by simpa using hkind, (ih s c hc).mp htyped⟩
    · intro h s c hc
      rw [child?_anonymous] at hc
      cases hchild : b.child? s with
      | none => rw [hchild] at hc; cases hc
      | some d =>
        rw [hchild, anonymousSlot, Option.some.injEq] at hc
        obtain ⟨hkind, htyped⟩ := h s d hchild
        rw [← hc]
        exact ⟨by simpa using hkind, (ih s d hchild).mpr htyped⟩

/-- What a slot and its copy have in common: the ids of the copy were drawn from `s` in the order
of a walk, and everything but the ids is the same. -/
structure IsCopy (s : Supply) (original : Option Block) (copy : Option Block × Supply) : Prop where
  ids : (walkSlot copy.1).map id = s.upcoming (walkSlot original).length
  supply : copy.2 = s.skip (walkSlot original).length
  anonymous : anonymousSlot copy.1 = anonymousSlot original

theorem isCopy_none (s : Supply) : IsCopy s none (none, s) :=
  ⟨rfl, rfl, rfl⟩

/-- A block with a drawn id whose slots were copied one after the other. -/
theorem IsCopy.node {s : Supply} {x y : Option Block} {x' y' : Option Block × Supply}
    (hx : IsCopy (s.skip 1) x x') (hy : IsCopy x'.2 y y') {b c : Block}
    (hb : b.walk = b :: (walkSlot x ++ walkSlot y))
    (hc : c.walk = c :: (walkSlot x'.1 ++ walkSlot y'.1)) (hid : c.id = s.id s.used)
    (hanon : c.anonymous = b.anonymous) : IsCopy s (some b) (some c, y'.2) := by
  have hlength : (walkSlot (some b)).length =
      1 + ((walkSlot x).length + (walkSlot y).length) := by
    rw [walkSlot, hb, List.length_cons, List.length_append, Nat.add_comm]
  constructor
  · rw [hlength, Supply.upcoming_add, Supply.upcoming_one, Supply.upcoming_add, walkSlot, hc,
      List.map_cons, List.map_append, hid, hx.ids, hy.ids, hx.supply, List.singleton_append]
  · rw [hlength, hy.supply, hx.supply, Supply.skip_skip, Supply.skip_skip]
  · rw [anonymousSlot, anonymousSlot, hanon]

mutual

theorem refresh_isCopy : ∀ (b : Block) (s : Supply),
    IsCopy s (some b) (some (b.refresh.run s).1, (b.refresh.run s).2)
  | scenario _ _ e st, s => by
    have he := refreshSlot_isCopy e (s.skip 1)
    have hst := refreshSlot_isCopy st ((refreshSlot e).run (s.skip 1)).2
    refine he.node hst rfl rfl rfl ?_
    exact congrArg₂ (scenario "" _) he.anonymous hst.anonymous
  | group _ _ st n, s => by
    have hst := refreshSlot_isCopy st (s.skip 1)
    have hn := refreshSlot_isCopy n ((refreshSlot st).run (s.skip 1)).2
    refine hst.node hn rfl rfl rfl ?_
    exact congrArg₂ (group "" _) hst.anonymous hn.anonymous
  | request _ r n, s => by
    have hn := refreshSlot_isCopy n (s.skip 1)
    refine hn.node (isCopy_none _) (List.append_nil _ ▸ rfl) (List.append_nil _ ▸ rfl) rfl ?_
    exact congrArg (request "" r) hn.anonymous
  | library _ call n, s => by
    have hn := refreshSlot_isCopy n (s.skip 1)
    refine hn.node (isCopy_none _) (List.append_nil _ ▸ rfl) (List.append_nil _ ▸ rfl) rfl ?_
    exact congrArg (library "" call) hn.anonymous
  | check _ es t n, s => by
    have hn := refreshSlot_isCopy n (s.skip 1)
    have ht := refreshSlot_isCopy t ((refreshSlot n).run (s.skip 1)).2
    refine hn.node ht rfl rfl rfl ?_
    exact congrArg₂ (check "" es) ht.anonymous hn.anonymous
  | executor _ shape, s => (isCopy_none _).node (isCopy_none _) rfl rfl rfl rfl
  | sleep _ x n, s => by
    have hn := refreshSlot_isCopy n (s.skip 1)
    refine hn.node (isCopy_none _) (List.append_nil _ ▸ rfl) (List.append_nil _ ▸ rfl) rfl ?_
    exact congrArg (sleep "" x) hn.anonymous

theorem refreshSlot_isCopy : ∀ (x : Option Block) (s : Supply),
    IsCopy s x ((refreshSlot x).run s)
  | none, s => isCopy_none s
  | some b, s => refresh_isCopy b s

end

end Block

namespace Template

/-- The copy of a template: fresh ids, and otherwise the block of the template. -/
theorem instantiate_spec (d : Template) (s : Supply) :
    (d.instantiate.run s).1.ids = s.upcoming d.block.walk.length ∧
      (d.instantiate.run s).2 = s.skip d.block.walk.length ∧
      (d.instantiate.run s).1.anonymous = d.block.anonymous := by
  have h := Block.refresh_isCopy d.block s
  refine ⟨h.ids, h.supply, ?_⟩
  have hanon := h.anonymous
  rw [Block.anonymousSlot, Block.anonymousSlot, Option.some.injEq] at hanon
  exact hanon

theorem typed_instantiate {d : Template} (h : d.block.Typed) (s : Supply) :
    (d.instantiate.run s).1.Typed := by
  rw [← Block.typed_anonymous, (d.instantiate_spec s).2.2]
  exact Block.typed_anonymous.mpr h

theorem kind_instantiate (d : Template) (s : Supply) :
    (d.instantiate.run s).1.kind = d.block.kind := by
  have h := congrArg Block.kind (d.instantiate_spec s).2.2
  rwa [Block.kind_anonymous, Block.kind_anonymous] at h

end Template
end LoadTest
