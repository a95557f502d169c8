import LoadTest.Proofs.Block.Copy
import LoadTest.Proofs.Editor.Place

/-!
Sound tests: the ids differ and every slot holds what belongs there.

A test is sound if it is sound around some place of it and what stands in the place fits.
-/

namespace LoadTest
namespace Test

/-- The ids differ, and every slot that is not empty holds a block that belongs there. -/
structure Sound (t : Test) : Prop where
  nodup : t.ids.Nodup
  typed : ∀ o ∈ t.blocks, ∀ s c, o.child? s = some c → s.accepts c.kind = true

theorem typed_iff_links {t : Test} :
    (∀ o ∈ t.blocks, ∀ s c, o.child? s = some c → s.accepts c.kind = true) ↔
      ∀ l ∈ t.links, l.slot.accepts l.held.kind = true :=
  Block.forall_accepts_iff

/-- What may be dropped on a test when ids are drawn from `s`: a template, whose copy gets ids that
are not in use, a block of the test, or a block from elsewhere that shares no id with it. -/
def Droppable (t : Test) (s : Supply) : Dropped → Prop
  | .template d => d.block.Typed ∧ (s.upcoming d.block.walk.length).Nodup ∧
      ∀ i ∈ s.upcoming d.block.walk.length, i ∉ t.ids
  | .block b => b ∈ t.blocks ∨ b.Typed ∧ b.ids.Nodup ∧ ∀ i ∈ b.ids, i ∉ t.ids

end Test

namespace Place

/-- A filled place is sound if it was sound when empty and the block in it fits. -/
theorem sound_fill {p : Place} {x : Option Block} :
    (p.fill x).Sound ↔ (p.fill none).Sound ∧ (Block.idsSlot x).Nodup ∧
      (∀ i ∈ (p.fill none).ids, i ∉ Block.idsSlot x) ∧
      ∀ b, x = some b → b.Typed ∧
        ∀ o, Block.opening p.trail = some o → o.2.accepts b.kind = true := by
  constructor
  · intro h
    obtain ⟨hempty, hx, hdisjoint⟩ := nodup_ids_fill.mp h.nodup
    have hlinks := Test.typed_iff_links.mp h.typed
    refine ⟨⟨hempty, Test.typed_iff_links.mpr fun l hl => ?_⟩, hx, hdisjoint, ?_⟩
    · exact hlinks l (mem_links_fill.mpr (Or.inl hl))
    · rintro b rfl
      refine ⟨Block.typed_iff_links.mpr fun l hl => ?_, fun o ho => ?_⟩
      · exact hlinks l (mem_links_fill.mpr (Or.inr (Or.inr hl)))
      · simpa using hlinks ⟨o.1, o.2, b.bare⟩
          (mem_links_fill.mpr (Or.inr (Or.inl ⟨o, b, ho, rfl, rfl⟩)))
  · rintro ⟨hempty, hx, hdisjoint, hfits⟩
    refine ⟨nodup_ids_fill.mpr ⟨hempty.nodup, hx, hdisjoint⟩, Test.typed_iff_links.mpr ?_⟩
    intro l hl
    rcases mem_links_fill.mp hl with hl | ⟨o, b, ho, rfl, rfl⟩ | hl
    · exact Test.typed_iff_links.mp hempty.typed l hl
    · simpa using (hfits b rfl).2 o ho
    · cases x with
      | none => simp [Block.linksSlot, Block.walkSlot] at hl
      | some b => exact Block.typed_iff_links.mp (hfits b rfl).1 l hl

end Place

namespace Test

/-! ## Taking out and placing -/

theorem Sound.detach {t : Test} (h : t.Sound) (i : BlockId) : (t.detach i).Sound := by
  by_cases hi : i ∈ t.ids
  · obtain ⟨b, hb, rfl⟩ := mem_ids.mp hi
    obtain ⟨p, rfl⟩ := Place.exists_place hb
    have hid := Place.not_mem_ids_of_nodup h.nodup b.id_mem_ids
    rw [Place.detach_fill hid]
    exact (Place.sound_fill.mp h).1
  · rw [Test.detach, take_of_not_mem hi]
    exact h

/-- A place on the canvas, behind all roots. -/
def lastPlace (t : Test) (p : Position) : Place :=
  ⟨t.library, t.roots, p, [], []⟩

theorem fill_lastPlace_none (t : Test) (p : Position) : (t.lastPlace p).fill none = t := by
  simp [lastPlace, Place.fill]

theorem fill_lastPlace_some (t : Test) (p : Position) (b : Block) :
    (t.lastPlace p).fill (some b) = t.placeAt b p := by
  simp [lastPlace, Place.fill, placeAt]

theorem Sound.placeAt {t : Test} (h : t.Sound) {b : Block} (hb : b.Typed) (hnd : b.ids.Nodup)
    (hdisjoint : ∀ i ∈ b.ids, i ∉ t.ids) (p : Position) : (t.placeAt b p).Sound := by
  rw [← fill_lastPlace_some]
  refine Place.sound_fill.mpr ⟨by rwa [fill_lastPlace_none], hnd, ?_, ?_⟩
  · rw [fill_lastPlace_none]
    exact fun i hi hb => hdisjoint i hb hi
  · rintro c hc
    cases hc
    refine ⟨hb, fun o ho => ?_⟩
    cases ho

/-- Detaching what is dropped leaves a sound test, and a block that fits beside it.  A block that
is not part of the dropped one is still there. -/
theorem Sound.detachDropped {t : Test} (h : t.Sound) {s : Supply} {d : Dropped}
    (hd : t.Droppable s d) :
    ∃ t₁ b s₁, (t.detachDropped d).run s = ((t₁, b), s₁) ∧ t₁.Sound ∧ b.Typed ∧ b.ids.Nodup ∧
      (∀ i ∈ b.ids, i ∉ t₁.ids) ∧ b.kind = d.kind ∧
      ∀ o ∈ t.blocks, (∀ c, d = .block c → o.id ∉ c.ids) →
        ∃ o₁ ∈ t₁.blocks, o₁.bare = o.bare := by
  cases d with
  | template d =>
    obtain ⟨htyped, hnd, hfresh⟩ := hd
    have hids := (d.instantiate_spec s).1
    refine ⟨t, (d.instantiate.run s).1, (d.instantiate.run s).2, rfl, h,
      Template.typed_instantiate htyped s, by rwa [hids], by rwa [hids],
      d.kind_instantiate s, fun o ho _ => ⟨o, ho, rfl⟩⟩
  | block b =>
    rcases hd with hmem | ⟨htyped, hnd, hdisjoint⟩
    · obtain ⟨p, hp⟩ := Place.exists_place hmem
      have hsound : (p.fill (some b)).Sound := by rwa [hp]
      have hid := Place.not_mem_ids_of_nodup hsound.nodup b.id_mem_ids
      have htake : t.take b.id = (p.fill none, some b) := by rw [← hp, Place.take_fill hid]
      obtain ⟨hempty, hnd, hdisjoint, hfits⟩ := Place.sound_fill.mp hsound
      refine ⟨p.fill none, b, s, ?_, hempty, (hfits b rfl).1, hnd, ?_, rfl, ?_⟩
      · simp only [Test.detachDropped, htake]
        rfl
      · exact fun i hi hp => hdisjoint i hp hi
      · intro o ho hnot
        rw [← hp] at ho
        exact Place.exists_mem_fill_none ho (hnot b rfl)
    · have hid : b.id ∉ t.ids := hdisjoint b.id b.id_mem_ids
      refine ⟨t, b, s, ?_, h, htyped, hnd, hdisjoint, rfl, fun o ho _ => ⟨o, ho, rfl⟩⟩
      simp only [Test.detachDropped, take_of_not_mem hid]
      rfl

/-! ## A sound test -/

def plainRequest (id : BlockId) (next : Option Block) : Block :=
  .request id ⟨"", "get", "/", [], []⟩ next

/-- A scenario of two requests, one after the other. -/
def twoRequests (first second : BlockId) : Test :=
  let chain := plainRequest first (some (plainRequest second none))
  ⟨Library.empty, [⟨⟨0, 0⟩, .scenario "s" "" none (some chain)⟩]⟩

theorem sound_twoRequests : (twoRequests "a" "b").Sound :=
  ⟨by decide, typed_iff_links.mpr (by decide)⟩

theorem second_mem_twoRequests (first second : BlockId) :
    plainRequest second none ∈ (twoRequests first second).blocks := by
  simp [twoRequests, plainRequest, blocks, Block.walk, Block.walkSlot]

end Test
end LoadTest
