import LoadTest.Proofs.Editor.Attaching

/-!
Moving a block into a slot: what changes, and that nothing else does.

A test with different ids is known by its blocks, each by itself, by which slot holds which block
and by its roots.  `Moved` says what becomes of these.
-/

namespace LoadTest

open Block (bare walkSlot idsSlot spineSlot)

namespace Block

/-- What a block with different ids holds has another id. -/
theorem held_id_ne {b : Block} (h : b.ids.Nodup) {l : Link} (hl : l ∈ b.links) :
    l.held.id ≠ b.id := by
  obtain ⟨s, c, hc, hheld⟩ := held_mem_of_mem_links hl
  obtain ⟨x, hx, hxl⟩ := List.mem_map.mp hheld
  intro he
  refine (nodup_of_child? h hc).1 (mem_ids.mpr ⟨x, hx, ?_⟩)
  rw [← id_bare x, hxl, he]

end Block

namespace Test

/-- The slot of a block with the id `i` holds a block with the id `c`. -/
def Holds (t : Test) (i : BlockId) (s : Slot) (c : BlockId) : Prop :=
  ∃ o ∈ t.blocks, o.id = i ∧ ∃ b, o.child? s = some b ∧ b.id = c

/-- The roots by their positions and their ids. -/
def rootKeys (t : Test) : List (Position × BlockId) :=
  t.roots.map fun r => (r.position, r.block.id)

theorem holds_iff {t : Test} {i : BlockId} {s : Slot} {c : BlockId} :
    t.Holds i s c ↔ ∃ l ∈ t.links, l.owner.id = i ∧ l.slot = s ∧ l.held.id = c := by
  constructor
  · rintro ⟨o, ho, rfl, b, hb, rfl⟩
    refine ⟨⟨o.bare, s, b.bare⟩, ?_, Block.id_bare o, rfl, Block.id_bare b⟩
    exact mem_links.mpr ⟨o, ho, Block.mem_ownLinks.mpr ⟨s, b, hb, rfl⟩⟩
  · rintro ⟨l, hl, rfl, rfl, rfl⟩
    obtain ⟨o, ho, hl⟩ := mem_links.mp hl
    obtain ⟨s, b, hb, rfl⟩ := Block.mem_ownLinks.mp hl
    exact ⟨o, ho, (Block.id_bare o).symm, b, hb, (Block.id_bare b).symm⟩

/-- `t'` is the test `t` with `b` moved into `slot` of `o`, which is its owner as it stands when
`b` has been taken out. -/
structure Moved (t : Test) (b o : Block) (slot : Slot) (t' : Test) : Prop where
  /-- A chain slot loses no block. -/
  chain_blocks : slot.isChain = true → (t'.blocks.map bare).Perm (t.blocks.map bare)
  /-- Any other slot loses what it held, and that is all that is lost. -/
  single_blocks : slot.isChain = false →
    (t'.blocks.map bare ++ (walkSlot (o.child? slot)).map bare).Perm (t.blocks.map bare)
  /-- In the slot is the chain of `b`, and behind it on a chain slot what was there. -/
  chain : ∃ o' ∈ t'.blocks, o'.bare = o.bare ∧ (spineSlot (o'.child? slot)).map bare =
    b.spine.map bare ++ (spineSlot (slot.kept o)).map bare
  /-- No other slot and no root holds `b`. -/
  holds_self : ∀ i s, t'.Holds i s b.id ↔ i = o.id ∧ s = slot
  /-- Every other slot holds what it held, but for the end of the chain of `b` on a chain slot and
  for the slots that are lost on any other. -/
  holds_other : ∀ i s c, c ≠ b.id → (t'.Holds i s c ↔
    (slot.isChain = true ∧ i = b.chainEnd.id ∧ s = .next ∧
        (o.child? slot).map Block.id = some c) ∨
      (t.Holds i s c ∧ ¬ (i = o.id ∧ s = slot) ∧
        (slot.isChain = false → i ∉ idsSlot (o.child? slot))))
  roots : t'.rootKeys = t.rootKeys.filter fun r => r.2 ≠ b.id
  library : t'.library = t.library

end Test

/-! ## The two places -/

/-- The block `b` is in the place `p` of a sound test.  Without it the slot of `o` is the place `q`,
which is then filled with `c`. -/
structure Moving (p q : Place) (b o c : Block) (slot : Slot) : Prop where
  sound : (p.fill (some b)).Sound
  refill : q.fill (o.child? slot) = p.fill none
  opening : Block.opening q.trail = some (o.bare, slot)
  hasSlot : o.kind.hasSlot slot = true
  mem_fill : ∀ x, o.setChild slot x ∈ (q.fill x).blocks
  continues : Block.Continues c b (slot.kept o)

namespace Moving

variable {p q : Place} {b o c : Block} {slot : Slot}

theorem nodup_block (h : Moving p q b o c slot) : b.ids.Nodup :=
  (Place.nodup_ids_fill.mp h.sound.nodup).2.1

/-- What is left has none of the ids of the block. -/
theorem not_mem_taken (h : Moving p q b o c slot) {i : BlockId} (hi : i ∈ b.ids) :
    i ∉ (p.fill none).ids :=
  fun ht => (Place.nodup_ids_fill.mp h.sound.nodup).2.2 i ht hi

theorem id_not_mem_taken (h : Moving p q b o c slot) : b.id ∉ (p.fill none).ids :=
  h.not_mem_taken b.id_mem_ids

theorem nodup_refill (h : Moving p q b o c slot) : (q.fill (o.child? slot)).ids.Nodup := by
  rw [h.refill]
  exact (Place.nodup_ids_fill.mp h.sound.nodup).1

theorem mem_taken {i : BlockId} (h : Moving p q b o c slot) :
    i ∈ (p.fill none).ids ↔ i ∈ (q.fill none).ids ∨ i ∈ idsSlot (o.child? slot) := by
  rw [← h.refill, Place.mem_ids_fill]

theorem owner_mem_open (h : Moving p q b o c slot) : o.id ∈ (q.fill none).ids :=
  Test.mem_ids.mpr ⟨_, h.mem_fill none, Block.id_setChild o slot none⟩

/-- The former occupant and what is around it have no id in common. -/
theorem not_mem_former (h : Moving p q b o c slot) {i : BlockId} (hi : i ∈ (q.fill none).ids) :
    i ∉ idsSlot (o.child? slot) :=
  (Place.nodup_ids_fill.mp h.nodup_refill).2.2 i hi

/-! ## Blocks -/

theorem perm_before (h : Moving p q b o c slot) :
    ((p.fill (some b)).blocks.map bare).Perm ((q.fill none).blocks.map bare ++
      (walkSlot (o.child? slot)).map bare ++ b.walk.map bare) := by
  have htaken := Place.perm_bare_fill q (o.child? slot)
  rw [h.refill] at htaken
  exact (Place.perm_bare_fill p (some b)).trans (htaken.append_right _)

theorem perm_after (h : Moving p q b o c slot) :
    ((q.fill (some c)).blocks.map bare).Perm ((q.fill none).blocks.map bare ++
      ((walkSlot (slot.kept o)).map bare ++ b.walk.map bare)) :=
  (Place.perm_bare_fill q (some c)).trans
    ((h.continues.blocks.trans List.perm_append_comm).append_left _)

/-! ## Links -/

theorem mem_links_before {l : Block.Link} :
    l ∈ (p.fill (some b)).links ↔ l ∈ (p.fill none).links ∨
      (∃ e, Block.opening p.trail = some e ∧ l = ⟨e.1, e.2, b.bare⟩) ∨ l ∈ b.links := by
  rw [Place.mem_links_fill, Block.linksSlot_some]
  simp

theorem mem_links_taken (h : Moving p q b o c slot) {l : Block.Link} :
    l ∈ (p.fill none).links ↔ l ∈ (q.fill none).links ∨
      (∃ f, o.child? slot = some f ∧ l = ⟨o.bare, slot, f.bare⟩) ∨
      l ∈ Block.linksSlot (o.child? slot) := by
  rw [← h.refill, Place.mem_links_fill, h.opening]
  simp

theorem mem_links_after (h : Moving p q b o c slot) {l : Block.Link} :
    l ∈ (q.fill (some c)).links ↔ l ∈ (q.fill none).links ∨ l = ⟨o.bare, slot, c.bare⟩ ∨
      l ∈ b.links ∨ (∃ k, slot.kept o = some k ∧ l = ⟨b.chainEnd.bare, .next, k.bare⟩) ∨
      l ∈ Block.linksSlot (slot.kept o) := by
  rw [Place.mem_links_fill, h.opening, Block.linksSlot_some, h.continues.links]
  simp

theorem not_mem_links_open (h : Moving p q b o c slot) {l : Block.Link}
    (hl : l ∈ (q.fill none).links) : ¬ (l.owner.id = o.id ∧ l.slot = slot) :=
  Test.not_mem_links_of_open (Place.nodup_ids_fill.mp h.nodup_refill).1 h.hasSlot (h.mem_fill none)
    hl

/-- After the move the slot of `o` holds the block, and nothing else does. -/
theorem holds_self (h : Moving p q b o c slot) (i : BlockId) (s : Slot) :
    (q.fill (some c)).Holds i s b.id ↔ i = o.id ∧ s = slot := by
  have htaken : ∀ l ∈ (p.fill none).links, l.held.id ≠ b.id :=
    fun l hl he => h.id_not_mem_taken (he ▸ Test.held_id_mem hl)
  rw [Test.holds_iff]
  constructor
  · rintro ⟨l, hl, rfl, rfl, hheld⟩
    rcases h.mem_links_after.mp hl with hl | rfl | hl | ⟨k, hk, rfl⟩ | hl
    · exact absurd hheld (htaken l (h.mem_links_taken.mpr (Or.inl hl)))
    · exact ⟨Block.id_bare o, rfl⟩
    · exact absurd hheld (Block.held_id_ne h.nodup_block hl)
    · refine absurd ?_ h.id_not_mem_taken
      rw [← hheld, Block.id_bare, h.mem_taken]
      refine Or.inr (Slot.mem_ids_kept (s := slot) ?_).2
      rw [hk]
      exact k.id_mem_ids
    · exact absurd hheld
        (htaken l (h.mem_links_taken.mpr (Or.inr (Or.inr (Slot.mem_links_kept hl).2))))
  · rintro ⟨rfl, rfl⟩
    refine ⟨⟨o.bare, s, c.bare⟩, h.mem_links_after.mpr (Or.inr (Or.inl rfl)), ?_⟩
    exact ⟨Block.id_bare o, rfl, by rw [Block.id_bare, h.continues.id_eq]⟩

theorem holds_other (h : Moving p q b o c slot) (i : BlockId) (s : Slot) {j : BlockId}
    (hj : j ≠ b.id) : (q.fill (some c)).Holds i s j ↔
      (slot.isChain = true ∧ i = b.chainEnd.id ∧ s = .next ∧
          (o.child? slot).map Block.id = some j) ∨
        ((p.fill (some b)).Holds i s j ∧ ¬ (i = o.id ∧ s = slot) ∧
          (slot.isChain = false → i ∉ idsSlot (o.child? slot))) := by
  rw [Test.holds_iff, Test.holds_iff]
  -- Each link is around both places, leads to one of them, or is in the block, at the end of its
  -- chain or in the former occupant.
  constructor
  · rintro ⟨l, hl, rfl, rfl, rfl⟩
    rcases h.mem_links_after.mp hl with hl | rfl | hl | ⟨k, hk, rfl⟩ | hl
    · have hbefore := mem_links_before (b := b).mpr (Or.inl (h.mem_links_taken.mpr (Or.inl hl)))
      exact Or.inr ⟨⟨l, hbefore, rfl, rfl, rfl⟩, h.not_mem_links_open hl,
        fun _ => h.not_mem_former (Block.owner_id_mem hl)⟩
    · exact absurd (by rw [Block.id_bare, h.continues.id_eq]) hj
    · have hbefore := mem_links_before (p := p).mpr (Or.inr (Or.inr hl))
      have howner := h.not_mem_taken (Block.owner_id_mem hl)
      rw [h.mem_taken, not_or] at howner
      exact Or.inr ⟨⟨l, hbefore, rfl, rfl, rfl⟩,
        fun ho => howner.1 (ho.1 ▸ h.owner_mem_open), fun _ => howner.2⟩
    · obtain ⟨hchain, hk⟩ := Slot.child?_of_kept hk
      exact Or.inl ⟨hchain, Block.id_bare _, rfl, by rw [hk, Block.id_bare]; rfl⟩
    · obtain ⟨hchain, hl⟩ := Slot.mem_links_kept hl
      have hbefore := mem_links_before (b := b).mpr
        (Or.inl (h.mem_links_taken.mpr (Or.inr (Or.inr hl))))
      refine Or.inr ⟨⟨l, hbefore, rfl, rfl, rfl⟩, ?_, fun hnot => ?_⟩
      · exact fun ho => h.not_mem_former h.owner_mem_open (ho.1 ▸ Block.owner_id_mem hl)
      · rw [hchain] at hnot
        cases hnot
  · rintro (⟨hchain, rfl, rfl, hformer⟩ | ⟨⟨l, hl, rfl, rfl, rfl⟩, hopen, houter⟩)
    · obtain ⟨k, hk, rfl⟩ := Option.map_eq_some_iff.mp hformer
      rw [← Slot.kept_of_isChain hchain] at hk
      have hend := h.mem_links_after.mpr (Or.inr (Or.inr (Or.inr (Or.inl ⟨k, hk, rfl⟩))))
      exact ⟨_, hend, Block.id_bare _, rfl, Block.id_bare k⟩
    · refine ⟨l, h.mem_links_after.mpr ?_, rfl, rfl, rfl⟩
      rcases mem_links_before.mp hl with hl | ⟨e, -, rfl⟩ | hl
      · rcases h.mem_links_taken.mp hl with hl | ⟨f, -, rfl⟩ | hl
        · exact Or.inl hl
        · exact absurd ⟨Block.id_bare o, rfl⟩ hopen
        · have hchain : slot.isChain = true := by
            by_contra hnot
            exact houter (by simpa using hnot) (Block.owner_id_mem hl)
          rw [Slot.kept_of_isChain hchain]
          exact Or.inr (Or.inr (Or.inr (Or.inr hl)))
      · exact absurd (Block.id_bare b) hj
      · exact Or.inr (Or.inr (Or.inl hl))

end Moving

/-! ## Roots -/

namespace Place

theorem rootKeys_fill (p : Place) (x : Option Block) :
    (p.fill x).rootKeys = p.before.map (fun r => (r.position, r.block.id)) ++
      (Block.fill p.trail x).toList.map (fun b => (p.position, b.id)) ++
        p.after.map fun r => (r.position, r.block.id) := by
  rw [Test.rootKeys, fill, List.map_append, List.map_append, List.map_map]
  rfl

/-- What is put into a slot does not change the roots. -/
theorem rootKeys_fill_eq {p : Place} {e : Block × Slot} (h : Block.opening p.trail = some e)
    (x y : Option Block) : (p.fill x).rootKeys = (p.fill y).rootKeys := by
  rw [rootKeys_fill, rootKeys_fill]
  cases htrail : p.trail with
  | nil =>
    rw [htrail] at h
    cases h
  | cons f trail => simp

theorem rootKeys_fill_none {p : Place} {b : Block} (h : b.id ∉ (p.fill none).ids) :
    (p.fill none).rootKeys = (p.fill (some b)).rootKeys.filter fun r => r.2 ≠ b.id := by
  have hroot : ∀ k ∈ (p.fill none).rootKeys, k.2 ≠ b.id := by
    rintro k hk he
    obtain ⟨r, hr, rfl⟩ := List.mem_map.mp hk
    exact h (Test.mem_ids.mpr
      ⟨r.block, Test.mem_blocks.mpr ⟨r, hr, Block.mem_walk_self r.block⟩, he⟩)
  have hself : (p.fill none).rootKeys.filter (fun r => r.2 ≠ b.id) = (p.fill none).rootKeys :=
    List.filter_eq_self.mpr fun k hk => by simpa using hroot k hk
  rw [← hself]
  cases htrail : p.trail with
  | nil => simp [rootKeys_fill, htrail]
  | cons f trail => simp [rootKeys_fill, htrail]

end Place

namespace Moving

variable {p q : Place} {b o c : Block} {slot : Slot}

theorem rootKeys_after (h : Moving p q b o c slot) :
    (q.fill (some c)).rootKeys = (p.fill (some b)).rootKeys.filter fun r => r.2 ≠ b.id := by
  rw [← Place.rootKeys_fill_none h.id_not_mem_taken, ← h.refill]
  exact Place.rootKeys_fill_eq h.opening _ _

theorem moved (h : Moving p q b o c slot) :
    Test.Moved (p.fill (some b)) b o slot (q.fill (some c)) where
  chain_blocks hchain := by
    have hafter := h.perm_after
    rw [Slot.kept_of_isChain hchain, ← List.append_assoc] at hafter
    exact hafter.trans h.perm_before.symm
  single_blocks hsingle := by
    have hafter := h.perm_after
    rw [Slot.kept_of_not_isChain hsingle] at hafter
    refine ((hafter.append_right _).trans ?_).trans h.perm_before.symm
    rw [walkSlot, List.map_nil, List.nil_append, List.append_assoc, List.append_assoc]
    exact List.perm_append_comm.append_left _
  chain := by
    refine ⟨o.setChild slot (some c), h.mem_fill (some c), Block.bare_setChild o slot (some c), ?_⟩
    rw [Block.child?_setChild_self h.hasSlot]
    exact h.continues.spine
  holds_self := h.holds_self
  holds_other i s _ hj := h.holds_other i s hj
  roots := h.rootKeys_after
  library := by
    have hlibrary := congrArg Test.library h.refill
    exact hlibrary

end Moving

namespace Test

/-- A guarded move of a block of a sound test into another slot does what `Moved` says. -/
theorem attach_moved {t : Test} (h : t.Sound) {b : Block} (hb : b ∈ t.blocks) {owner : BlockId}
    {slot : Slot} (hcan : t.canAttach owner slot (.block b) = .ok true)
    (hnew : ¬ t.Holds owner slot b.id) (s : Supply) :
    ∃ t', (t.attach owner slot (.block b)).run s = .ok (t', s) ∧
      ∃ o ∈ (t.detach b.id).blocks, o.id = owner ∧ t.Moved b o slot t' := by
  obtain ⟨o, hfind, -⟩ := of_canAttach hcan
  obtain ⟨ho, rfl⟩ := mem_of_find?_eq_some hfind
  have hheld : (o.child? slot).map Block.id ≠ some b.id := by
    intro he
    obtain ⟨d, hd, hid⟩ := Option.map_eq_some_iff.mp he
    exact hnew ⟨o, ho, rfl, d, hd, hid⟩
  have hdroppable : t.Droppable s (.block b) := Or.inl hb
  obtain ⟨t₁, b₁, o₁, q, c, t', s', ha, hrun⟩ := h.exists_attaches ho hdroppable hcan hheld
  obtain ⟨p, rfl⟩ := Place.exists_place hb
  have hout := Place.not_mem_ids_of_nodup h.nodup b.id_mem_ids
  have hdetached : ((p.fill (some b)).detachDropped (.block b)).run s = ((p.fill none, b), s) := by
    simp only [detachDropped, Place.take_fill hout]
    rfl
  have heq := hdetached.symm.trans ha.detached
  cases heq
  refine ⟨t', hrun, o₁, ?_, ha.owner_id, ?_⟩
  · rw [Place.detach_fill hout]
    exact ha.owner_mem
  · rw [ha.result]
    exact Moving.moved ⟨h, ha.refill, ha.opening, ha.hasSlot, ha.mem_fill, ha.continues⟩

theorem attach_moved_twoRequests :
    (twoRequests "a" "b").canAttach "s" .step (.block (plainRequest "b" none)) = .ok true ∧
      ∃ t', ((twoRequests "a" "b").attach "s" .step (.block (plainRequest "b" none))).run
          ⟨Nat.repr, 0⟩ = .ok (t', ⟨Nat.repr, 0⟩) ∧
        ∃ o ∈ ((twoRequests "a" "b").detach "b").blocks, o.id = "s" ∧
          (twoRequests "a" "b").Moved (plainRequest "b" none) o .step t' :=
  ⟨rfl, attach_moved sound_twoRequests (second_mem_twoRequests "a" "b") rfl
    (holds_iff.not.mpr (by decide)) _⟩

end Test
end LoadTest
