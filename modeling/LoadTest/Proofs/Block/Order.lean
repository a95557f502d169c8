import LoadTest.Proofs.Block.Rewriting

/-!
Trees with a hole, in the order of a walk.

A walk meets some blocks ahead of the hole and the others behind it.  A rewrite that looks for an id
and stops at the first block that has it changes what stands in a hole with no such block ahead
(`run_rewriteSlot_fill`), and every id that occurs is met first in such a hole (`exists_first`).
-/

namespace LoadTest
namespace Block

/-! ## Around a hole -/

namespace Frame

/-- What a walk meets in the frame ahead of the open slot, each block by itself. -/
def ahead (f : Frame) : List Block :=
  f.block.bare :: (f.block.kind.slots.takeWhile (· ≠ f.slot)).flatMap fun s =>
    (walkSlot (f.block.child? s)).map bare

/-- What a walk meets in the frame behind the open slot. -/
def behind (f : Frame) : List Block :=
  (f.block.kind.slots.dropWhile (· ≠ f.slot)).tail.flatMap fun s =>
    (walkSlot (f.block.child? s)).map bare

theorem takeWhile_slots {k : Kind} {s : Slot} {l r : List Slot} (h : k.slots = l ++ s :: r) :
    k.slots.takeWhile (· ≠ s) = l ∧ k.slots.dropWhile (· ≠ s) = s :: r := by
  have hl : ∀ s' ∈ l, decide (s' ≠ s) = true :=
    fun s' hs' => decide_eq_true (ne_of_mem_of_not_mem hs' (not_mem_of_slots_eq h).1)
  rw [h, List.takeWhile_append_of_pos hl, List.dropWhile_append_of_pos hl,
    List.takeWhile_cons_of_neg (by simp), List.dropWhile_cons_of_neg (by simp), List.append_nil]
  exact ⟨rfl, rfl⟩

/-- A walk of a filled frame meets what is ahead, then what was put in, then what is behind. -/
theorem exists_walk_fill (f : Frame) (x : Option Block) :
    ∃ before after, (f.fill x).walk = before ++ walkSlot x ++ after ∧
      before.map bare = f.ahead ∧ after.map bare = f.behind := by
  obtain ⟨l, r, hlr⟩ := List.append_of_mem (List.contains_iff_mem.mp f.hasSlot)
  obtain ⟨htake, hdrop⟩ := takeWhile_slots hlr
  refine ⟨f.fill x :: l.flatMap fun s => walkSlot (f.block.child? s),
    r.flatMap fun s => walkSlot (f.block.child? s), walk_setChild hlr x, ?_, ?_⟩
  · rw [ahead, htake, List.map_cons, bare_fill, List.map_flatMap]
  · rw [behind, hdrop, List.tail_cons, List.map_flatMap]

end Frame

/-- What a walk meets ahead of the hole. -/
def ahead (trail : List Frame) : List Block :=
  trail.flatMap Frame.ahead

/-- What a walk meets behind the hole: the innermost frame comes first. -/
def behind (trail : List Frame) : List Block :=
  trail.reverse.flatMap Frame.behind

theorem exists_walk_fill (trail : List Frame) (x : Option Block) :
    ∃ before after, walkSlot (fill trail x) = before ++ walkSlot x ++ after ∧
      before.map bare = ahead trail ∧ after.map bare = behind trail := by
  induction trail with
  | nil => exact ⟨[], [], (List.append_nil _).symm, rfl, rfl⟩
  | cons f trail ih =>
    obtain ⟨b, a, hwalk, hahead, hbehind⟩ := ih
    obtain ⟨b', a', hwalk', hahead', hbehind'⟩ := f.exists_walk_fill (fill trail x)
    refine ⟨b' ++ b, a ++ a', ?_, ?_, ?_⟩
    · rw [fill_cons, walkSlot, hwalk', hwalk]
      simp only [List.append_assoc]
    · rw [List.map_append, hahead', hahead, ahead, ahead, List.flatMap_cons]
    · rw [List.map_append, hbehind', hbehind, behind, behind, List.reverse_cons,
        List.flatMap_append, List.flatMap_singleton]

/-- Every id that occurs is met first in some hole. -/
theorem exists_first {b : Block} {i : BlockId} (h : i ∈ b.ids) :
    ∃ trail c, fill trail (some c) = some b ∧ c.id = i ∧ i ∉ (ahead trail).map id := by
  induction b using childInduction with
  | step b ih =>
    by_cases hb : b.id = i
    · exact ⟨[], b, rfl, hb, List.not_mem_nil⟩
    · obtain ⟨x, hx, hxi⟩ := mem_ids.mp h
      have hbelow : ∃ s ∈ b.kind.slots, i ∈ idsSlot (b.child? s) := by
        rw [walk_eq_slots, List.mem_cons, List.mem_flatMap] at hx
        rcases hx with rfl | ⟨s, hs, hx⟩
        · exact absurd hxi hb
        · exact ⟨s, hs, List.mem_map.mpr ⟨x, hx, hxi⟩⟩
      obtain ⟨s, hs⟩ := Option.isSome_iff_exists.mp (List.find?_isSome.mpr
        (by simpa using hbelow : ∃ s ∈ b.kind.slots, decide (i ∈ idsSlot (b.child? s)) = true))
      obtain ⟨hi, l, r, hlr, hl⟩ := List.find?_eq_some_iff_append.mp hs
      cases hc : b.child? s with
      | none =>
        rw [hc] at hi
        cases hi
      | some c =>
        rw [hc, decide_eq_true_eq, idsSlot_some] at hi
        obtain ⟨trail, x, hfill, hxi, hahead⟩ := ih s c hc hi
        have hslot := hasSlot_of_child? hc
        refine ⟨b.frameAt s hslot :: trail, x, ?_, hxi, ?_⟩
        · rw [fill_cons, hfill, ← hc, fill_frameAt_self]
        · rw [ahead, List.flatMap_cons, List.map_append, List.mem_append, not_or]
          refine ⟨?_, hahead⟩
          rw [Frame.ahead, frameAt, (Frame.takeWhile_slots hlr).1, List.map_cons, id_bare,
            List.mem_cons, not_or, List.map_flatMap, List.mem_flatMap]
          refine ⟨Ne.symm hb, ?_⟩
          rintro ⟨s', hs', hmem⟩
          rw [map_id_map_bare] at hmem
          simpa [idsSlot, hmem] using hl s' hs'

/-! ## Rewrites that stop -/

variable {σ : Type} {f : Block → StateM σ Rewrite}

/-- From the state `s` on the rewrite changes nothing. -/
def Spent (f : Block → StateM σ Rewrite) (s : σ) : Prop :=
  ∀ b : Block, (f b).run s = pure (.descend, s)

mutual

theorem run_rewrite_of_spent {s : σ} (h : Spent f s) :
    ∀ b : Block, (b.rewrite f).run s = pure (b, s)
  | scenario .. | group .. | request .. | library .. | check .. | executor .. | sleep .. => by
    simp [rewrite, run_rewriteSlot_of_spent h]

theorem run_rewriteSlot_of_spent {s : σ} (h : Spent f s) :
    ∀ x : Option Block, (rewriteSlot f x).run s = pure (x, s)
  | none => rfl
  | some b => by simp [rewriteSlot, h b, run_rewrite_of_spent h b]

end

theorem Frame.run_rewrite_fill {i : BlockId} (hf : Seeks f i) {s s' : σ} (hspent : Spent f s')
    {fr : Frame} (h : i ∉ fr.ahead.map id) {x y : Option Block}
    (hx : (rewriteSlot f x).run s = pure (y, s')) :
    ((fr.fill x).rewrite f).run s = pure (fr.fill y, s') := by
  have hkept : ∀ sl ∈ fr.block.kind.slots.takeWhile (· ≠ fr.slot),
      rewriteSlot f (fr.block.child? sl) = pure (fr.block.child? sl) := by
    intro sl hsl
    refine rewriteSlot_of_not_mem hf _ fun hi => h ?_
    rw [Frame.ahead, List.map_cons, List.map_flatMap]
    refine List.mem_cons_of_mem _ (List.mem_flatMap.mpr ⟨sl, hsl, ?_⟩)
    rw [map_id_map_bare]
    exact hi
  obtain ⟨b, sl, hs⟩ := fr
  simp only [Frame.fill]
  cases b <;> cases sl <;>
    simp only [kind, Kind.hasSlot, Kind.slots, List.contains_cons, List.contains_nil] at hs <;>
    first
    | exact absurd hs (by decide)
    | simp only [kind, Kind.slots, child?, List.takeWhile, ne_eq, reduceCtorEq, not_true_eq_false,
        not_false_eq_true, decide_true, decide_false, List.mem_cons, List.not_mem_nil, or_false,
        forall_eq, false_implies, implies_true] at hkept
      simp [setChild, rewrite, hkept, run_rewriteSlot_of_spent hspent, hx]

/-- The rewrite changes what stands in the hole and stops there. -/
theorem run_rewriteSlot_fill {i : BlockId} (hf : Seeks f i) {s s' : σ} (hspent : Spent f s')
    {trail : List Frame} (h : i ∉ (ahead trail).map id) {x y : Option Block}
    (hx : (rewriteSlot f x).run s = pure (y, s')) :
    (rewriteSlot f (fill trail x)).run s = pure (fill trail y, s') := by
  induction trail with
  | nil => exact hx
  | cons fr trail ih =>
    rw [ahead, List.flatMap_cons, List.map_append, List.mem_append, not_or] at h
    have hid : (fr.fill (fill trail x)).id ≠ i := by
      intro e
      rw [Frame.id_fill] at e
      exact h.1 (List.mem_map.mpr ⟨fr.block.bare, List.mem_cons_self, by rw [id_bare, e]⟩)
    have hrewrite := Frame.run_rewrite_fill hf hspent h.1 (ih h.2)
    rw [fill_cons, fill_cons, rewriteSlot, hf _ hid]
    simp [hrewrite]

end Block
end LoadTest
