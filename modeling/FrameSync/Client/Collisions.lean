import FrameSync.Client.Steps
import Mathlib.Algebra.BigOperators.Group.Finset.Piecewise
import Mathlib.Algebra.BigOperators.Ring.Finset

/-! # The two collision loops

What the loops of `update_ctrl_once` do to any set of bullets, enemies and players, in any order of
iteration. A collision takes one blood of both objects, so each loop takes as much from one type as from
the other (`Paired`). An object with one blood is dead after it, and the dead collide no more: so when
the bullets and the enemies have at most one blood each, which is what their constructors give, no
collision is left at the end (`collisions_complete`). With more blood some are (`overlap_left`). -/

namespace FrameSync.Client

variable {γ : Type}

/-- Two objects collide in `update_ctrl_once`. -/
def Entity.meets (e₁ e₂ : Entity) : Bool := !e₁.isDead && !e₂.isDead && e₁.is2RectsCross e₂

/-- An object with less blood meets no more than it did. -/
theorem Entity.meets_of_worn {e₁ e₂ : Entity} {b₁ b₂ : ℤ} (h₁ : b₁ ≤ e₁.blood) (h₂ : b₂ ≤ e₂.blood)
    (h : Entity.meets { e₁ with blood := b₁ } { e₂ with blood := b₂ } = true) : e₁.meets e₂ = true := by
  simp only [meets, isDead, Bool.and_eq_true, Bool.not_eq_true', decide_eq_false_iff_not] at h ⊢
  exact ⟨⟨fun hle => h.1.1 (h₁.trans hle), fun hle => h.1.2 (h₂.trans hle)⟩, h.2⟩

namespace GameObj

open Program

/-! ## Games in which some objects lost blood -/

/-- Some objects lost blood, and nothing else changed. -/
structure Worn (g g' : GameObj γ) : Prop where
  /-- Only the objects changed. -/
  rest : g' = { g with objects := g'.objects }
  /-- None is new. -/
  absent : ∀ id, g.objects.lookup id = none → g'.objects.lookup id = none
  /-- Each is as before, with at most its blood. -/
  stored : ∀ id e, g.objects.lookup id = some e →
    ∃ b ≤ e.blood, g'.objects.lookup id = some { e with blood := b }

theorem Worn.refl (g : GameObj γ) : Worn g g := ⟨rfl, fun _ h => h, fun _ e h => ⟨e.blood, le_rfl, h⟩⟩

theorem Worn.trans {g g' g'' : GameObj γ} (h : Worn g g') (h' : Worn g' g'') : Worn g g'' := by
  refine ⟨?_, fun id hnone => h'.absent id (h.absent id hnone), fun id e he => ?_⟩
  · rw [h'.rest, h.rest]
  · obtain ⟨b, hb, he'⟩ := h.stored id e he
    obtain ⟨b', hb', he''⟩ := h'.stored id _ he'
    exact ⟨b', hb'.trans hb, he''⟩

/-- The dicts are the same. -/
theorem Worn.dictOf {g g' : GameObj γ} (h : Worn g g') (t : EntityType) : g'.dictOf t = g.dictOf t := by
  rw [h.rest]
  cases t <;> rfl

/-- Each object of the later game was there before. -/
theorem Worn.before {g g' : GameObj γ} (h : Worn g g') {id : ℕ} {e' : Entity}
    (he' : g'.objects.lookup id = some e') :
    ∃ e b, g.objects.lookup id = some e ∧ b ≤ e.blood ∧ e' = { e with blood := b } := by
  cases he : g.objects.lookup id with
  | none =>
      rw [h.absent id he] at he'
      cases he'
  | some e =>
      obtain ⟨b, hb, heb⟩ := h.stored id e he
      exact ⟨e, b, rfl, hb, Option.some.inj (he'.symm.trans heb)⟩

/-- The blood of an object; 0 for an id that is not in use. -/
def bloodAt (g : GameObj γ) (id : ℕ) : ℤ := ((g.objects.lookup id).map Entity.blood).getD 0

theorem bloodAt_eq {g : GameObj γ} {id : ℕ} {e : Entity} (h : g.objects.lookup id = some e) :
    g.bloodAt id = e.blood := by
  rw [bloodAt, h]
  rfl

/-- The blood that the objects of a type lost from one game to another. -/
def bloodLostBy (t : EntityType) (g g' : GameObj γ) : ℤ :=
  ∑ id ∈ (g.dictOf t).keys.toFinset, (g.bloodAt id - g'.bloodAt id)

/-- The objects of a type that lost blood from one game to another. -/
def struck (t : EntityType) (g g' : GameObj γ) : Finset ℕ :=
  (g.dictOf t).keys.toFinset.filter fun id => g'.bloodAt id < g.bloodAt id

/-- One object of the type loses one blood more. -/
theorem bloodLostBy_hit {t : EntityType} {g g' g'' : GameObj γ} {id : ℕ} (hid : id ∈ (g.dictOf t).keys)
    (h : ∀ id' ∈ (g.dictOf t).keys, g''.bloodAt id' = g'.bloodAt id' - if id' = id then 1 else 0) :
    bloodLostBy t g g'' = bloodLostBy t g g' + 1 := by
  have hterm : ∀ id' ∈ (g.dictOf t).keys.toFinset, g.bloodAt id' - g''.bloodAt id'
      = (g.bloodAt id' - g'.bloodAt id') + if id' = id then 1 else 0 := by
    intro id' hid'
    rw [h id' (List.mem_toFinset.mp hid')]
    omega
  rw [bloodLostBy, Finset.sum_congr rfl hterm, Finset.sum_add_distrib, Finset.sum_ite_eq',
    if_pos (List.mem_toFinset.mpr hid)]
  rfl

/-- Objects that lost at most one blood each: as many were struck as blood was lost. -/
theorem card_struck {t : EntityType} {g g' : GameObj γ}
    (h : ∀ id ∈ (g.dictOf t).keys, g'.bloodAt id ≤ g.bloodAt id ∧ g.bloodAt id - 1 ≤ g'.bloodAt id) :
    ((struck t g g').card : ℤ) = bloodLostBy t g g' := by
  rw [struck, Finset.card_filter, Nat.cast_sum, bloodLostBy]
  refine Finset.sum_congr rfl fun id hid => ?_
  obtain ⟨hle, hge⟩ := h id (List.mem_toFinset.mp hid)
  push_cast
  split_ifs
  all_goals omega

/-! ## One collision -/

/-- The objects of two ids collide. -/
def Meet (g : GameObj γ) (id₁ id₂ : ℕ) : Prop :=
  ∃ e₁ e₂, g.objects.lookup id₁ = some e₁ ∧ g.objects.lookup id₂ = some e₂ ∧ e₁.meets e₂ = true

/-- What does not collide will not while blood is lost. -/
theorem Worn.meet {g g' : GameObj γ} (h : Worn g g') {id₁ id₂ : ℕ} (hmeet : g'.Meet id₁ id₂) :
    g.Meet id₁ id₂ := by
  obtain ⟨e₁', e₂', he₁', he₂', hmeets⟩ := hmeet
  obtain ⟨e₁, b₁, he₁, hb₁, rfl⟩ := h.before he₁'
  obtain ⟨e₂, b₂, he₂, hb₂, rfl⟩ := h.before he₂'
  exact ⟨e₁, e₂, he₁, he₂, Entity.meets_of_worn hb₁ hb₂ hmeets⟩

/-- The state after both objects were hit. -/
def hits (id₁ id₂ : ℕ) (e₁ e₂ : Entity) (g : GameObj γ) : GameObj γ :=
  (g.put id₁ e₁.onHit).put id₂ e₂.onHit

section Hits

variable {g : GameObj γ} {id₁ id₂ : ℕ} {e₁ e₂ : Entity} (h₁ : g.objects.lookup id₁ = some e₁)
  (h₂ : g.objects.lookup id₂ = some e₂) (hne : id₂ ≠ id₁)

include h₁ h₂ hne

/-- The objects after a collision. -/
theorem lookup_hits (id : ℕ) : (g.hits id₁ id₂ e₁ e₂).objects.lookup id
    = if id = id₂ then some e₂.onHit else if id = id₁ then some e₁.onHit else g.objects.lookup id := by
  have h₂' : (g.put id₁ e₁.onHit).objects.lookup id₂ = some e₂ := by
    rw [lookup_put h₁, if_neg hne]
    exact h₂
  rw [hits, lookup_put h₂', lookup_put h₁]

/-- Both objects lose one blood. -/
theorem bloodAt_hits (id : ℕ) : (g.hits id₁ id₂ e₁ e₂).bloodAt id
    = g.bloodAt id - if id = id₁ ∨ id = id₂ then 1 else 0 := by
  rw [bloodAt, lookup_hits h₁ h₂ hne]
  by_cases hid₂ : id = id₂
  · rw [if_pos hid₂, if_pos (Or.inr hid₂), hid₂, bloodAt_eq h₂]
    rfl
  · rw [if_neg hid₂]
    by_cases hid₁ : id = id₁
    · rw [if_pos hid₁, if_pos (Or.inl hid₁), hid₁, bloodAt_eq h₁]
      rfl
    · rw [if_neg hid₁, if_neg (not_or.mpr ⟨hid₁, hid₂⟩), sub_zero, bloodAt]

theorem worn_hits : Worn g (g.hits id₁ id₂ e₁ e₂) := by
  refine ⟨rfl, fun id hnone => ?_, fun id e he => ?_⟩
  · rw [lookup_hits h₁ h₂ hne, if_neg, if_neg]
    · exact hnone
    · rintro rfl
      rw [hnone] at h₁
      cases h₁
    · rintro rfl
      rw [hnone] at h₂
      cases h₂
  · rw [lookup_hits h₁ h₂ hne]
    split_ifs with hid₂ hid₁
    · subst hid₂
      obtain rfl := Option.some.inj (h₂.symm.trans he)
      exact ⟨e₂.blood - 1, by omega, rfl⟩
    · subst hid₁
      obtain rfl := Option.some.inj (h₁.symm.trans he)
      exact ⟨e₁.blood - 1, by omega, rfl⟩
    · exact ⟨e.blood, le_rfl, he⟩

end Hits

/-- Reading an object. -/
theorem object_apply {g : GameObj γ} {id : ℕ} {e : Entity} (h : g.objects.lookup id = some e) :
    (object id : Method γ Entity) g = .ok (e, g) := by
  rw [object, get_bind_apply, h]
  rfl

/-- **What the body of a collision loop does.** -/
theorem collidePair_apply {g : GameObj γ} {id₁ id₂ : ℕ} {e₁ e₂ : Entity}
    (h₁ : g.objects.lookup id₁ = some e₁) (h₂ : g.objects.lookup id₂ = some e₂) :
    collidePair id₁ id₂ g = .ok ((), if e₁.meets e₂ = true then g.hits id₁ id₂ e₁ e₂ else g) := by
  rw [collidePair, bind_of_ok (object_apply h₁), bind_of_ok (object_apply h₂)]
  show (if e₁.meets e₂ = true then hitBoth id₁ id₂ e₁ e₂ else pure () : Method γ Unit) g = _
  split_ifs
  · rfl
  · rfl

/-! ## A collision loop -/

/-- Bullets and enemies have at most one blood. -/
def OneBlood (g : GameObj γ) : Prop :=
  ∀ id e, g.objects.lookup id = some e → e.type ≠ .player → e.blood ≤ 1

theorem OneBlood.worn {g g' : GameObj γ} (h : g.OneBlood) (hworn : Worn g g') : g'.OneBlood := by
  intro id e' he' htype
  obtain ⟨e, b, he, hb, rfl⟩ := hworn.before he'
  exact hb.trans (h id e he htype)

/-- What collisions between objects of two types have done. -/
structure Paired (t t' : EntityType) (g g' : GameObj γ) : Prop where
  /-- Some objects lost blood. -/
  worn : Worn g g'
  /-- Not those that were dead, and not those of other types. -/
  spared : ∀ id e, g.objects.lookup id = some e → e.isDead = true ∨ (e.type ≠ t ∧ e.type ≠ t') →
    g'.objects.lookup id = some e
  /-- No object lost blood that it did not have. -/
  nonneg : ∀ id, 0 ≤ g.bloodAt id → 0 ≤ g'.bloodAt id
  /-- No bullet and no enemy lost more than one, if none had more. -/
  once : g.OneBlood → ∀ id e, g.objects.lookup id = some e → e.type ≠ .player →
    e.blood - 1 ≤ g'.bloodAt id
  /-- The one type lost as much as the other. -/
  lost : bloodLostBy t g g' = bloodLostBy t' g g'

theorem Paired.refl (t t' : EntityType) (g : GameObj γ) : Paired t t' g g := by
  refine ⟨.refl g, fun _ _ h _ => h, fun _ h => h, fun _ id e he _ => ?_, ?_⟩
  · rw [bloodAt_eq he]
    omega
  · simp [bloodLostBy]

section Loops

variable {t t' : EntityType} {g g' : GameObj γ}

/-- One more collision. -/
theorem Paired.hits (h : Paired t t' g g') (hindexed : g.Indexed) (hne : t ≠ t') {id₁ id₂ : ℕ}
    (hid₁ : id₁ ∈ (g.dictOf t).keys) (hid₂ : id₂ ∈ (g.dictOf t').keys) {e₁ e₂ : Entity}
    (h₁ : g'.objects.lookup id₁ = some e₁) (h₂ : g'.objects.lookup id₂ = some e₂)
    (hmeets : e₁.meets e₂ = true) : Paired t t' g (g'.hits id₁ id₂ e₁ e₂) := by
  have disjoint : ∀ id, id ∈ (g.dictOf t).keys → id ∉ (g.dictOf t').keys := by
    intro id hid hid'
    obtain ⟨e, he, ht⟩ := (hindexed.dict id t).mp hid
    obtain ⟨e', he', ht'⟩ := (hindexed.dict id t').mp hid'
    obtain rfl := Option.some.inj (he.symm.trans he')
    exact hne (ht.symm.trans ht')
  have hids : id₂ ≠ id₁ := by
    rintro rfl
    exact disjoint _ hid₁ hid₂
  simp only [Entity.meets, Bool.and_eq_true, Bool.not_eq_true', Entity.isDead, decide_eq_false_iff_not,
    not_le] at hmeets
  obtain ⟨⟨hpos₁, hpos₂⟩, -⟩ := hmeets
  have hblood := bloodAt_hits h₁ h₂ hids
  have hworn := worn_hits h₁ h₂ hids
  -- an object that is hit has blood
  have hpos : ∀ id, id = id₁ ∨ id = id₂ → 0 < g'.bloodAt id := by
    rintro id (rfl | rfl)
    · rwa [bloodAt_eq h₁]
    · rwa [bloodAt_eq h₂]
  refine ⟨h.worn.trans hworn, fun id e he hspared => ?_, fun id hnonneg => ?_,
    fun hone id e he htype => ?_, ?_⟩
  · have he' := h.spared id e he hspared
    have hnot : ¬(id = id₁ ∨ id = id₂) := by
      intro hid
      have halive := hpos id hid
      rw [bloodAt_eq he'] at halive
      rcases hspared with hdead | ⟨ht, ht'⟩
      · rw [Entity.isDead, decide_eq_true_iff] at hdead
        omega
      · rcases hid with rfl | rfl
        · obtain ⟨e', he'', ht''⟩ := (hindexed.dict _ t).mp hid₁
          obtain rfl := Option.some.inj (he.symm.trans he'')
          exact ht ht''
        · obtain ⟨e', he'', ht''⟩ := (hindexed.dict _ t').mp hid₂
          obtain rfl := Option.some.inj (he.symm.trans he'')
          exact ht' ht''
    rw [lookup_hits h₁ h₂ hids, if_neg fun h => hnot (Or.inr h), if_neg fun h => hnot (Or.inl h)]
    exact he'
  · have := h.nonneg id hnonneg
    rw [hblood]
    split_ifs with hid
    · have := hpos id hid
      omega
    · omega
  · have honce := h.once hone id e he htype
    have hle := hone id e he htype
    rw [hblood]
    split_ifs with hid
    · have := hpos id hid
      omega
    · omega
  · rw [bloodLostBy_hit hid₁ fun id hid => ?_, bloodLostBy_hit hid₂ fun id hid => ?_, h.lost]
    · have hother : id ≠ id₁ := by
        rintro rfl
        exact disjoint id hid₁ hid
      rw [hblood, if_congr (or_iff_right hother) rfl rfl]
    · have hother : id ≠ id₂ := by
        rintro rfl
        exact disjoint id hid hid₂
      rw [hblood, if_congr (or_iff_left hother) rfl rfl]

/-- **The body of a collision loop.** The two objects do not collide after it, if the first had one
blood. -/
theorem Paired.collidePair (h : Paired t t' g g') (hindexed : g.Indexed) (hne : t ≠ t')
    (ht : t ≠ .player) {id₁ id₂ : ℕ} (hid₁ : id₁ ∈ (g.dictOf t).keys)
    (hid₂ : id₂ ∈ (g.dictOf t').keys) :
    ∃ g'', GameObj.collidePair id₁ id₂ g' = .ok ((), g'') ∧ Paired t t' g g'' ∧ Worn g' g'' ∧
      (g.OneBlood → ¬ g''.Meet id₁ id₂) := by
  obtain ⟨e₁, he₁, ht₁⟩ := (hindexed.dict id₁ t).mp hid₁
  obtain ⟨e₂, he₂, ht₂⟩ := (hindexed.dict id₂ t').mp hid₂
  obtain ⟨b₁, hb₁, h₁⟩ := h.worn.stored id₁ e₁ he₁
  obtain ⟨b₂, hb₂, h₂⟩ := h.worn.stored id₂ e₂ he₂
  have hids : id₂ ≠ id₁ := by
    rintro rfl
    obtain rfl := Option.some.inj (he₁.symm.trans he₂)
    exact hne (ht₁.symm.trans ht₂)
  refine ⟨_, collidePair_apply h₁ h₂, ?_⟩
  split_ifs with hmeets
  · refine ⟨h.hits hindexed hne hid₁ hid₂ h₁ h₂ hmeets, worn_hits h₁ h₂ hids, ?_⟩
    -- the first object had one blood, and is dead now
    rintro hone ⟨e₁', e₂', he₁', -, hmeets'⟩
    rw [lookup_hits h₁ h₂ hids, if_neg hids.symm, if_pos rfl] at he₁'
    obtain rfl := Option.some.inj he₁'
    have hle := hone id₁ e₁ he₁ (ht₁ ▸ ht)
    simp only [Entity.meets, Bool.and_eq_true, Bool.not_eq_true'] at hmeets'
    have halive : ¬ b₁ - 1 ≤ 0 := of_decide_eq_false hmeets'.1.1
    omega
  · refine ⟨h, .refl g', ?_⟩
    rintro - ⟨e₁', e₂', he₁', he₂', hmeets'⟩
    obtain rfl := Option.some.inj (h₁.symm.trans he₁')
    obtain rfl := Option.some.inj (h₂.symm.trans he₂')
    exact hmeets hmeets'

/-- The outer loop has still to go through `outer`, and the objects that had their turn collide with
none. -/
structure Settled (t t' : EntityType) (g : GameObj γ) (outer : List ℕ) (g' : GameObj γ) : Prop where
  /-- What the collisions have done so far. -/
  paired : Paired t t' g g'
  /-- The objects to come. -/
  keys : ∀ id ∈ outer, id ∈ (g.dictOf t).keys
  /-- The others are done, if they had one blood. -/
  clear : g.OneBlood → ∀ id₁ ∈ (g.dictOf t).keys, id₁ ∉ outer →
    ∀ id₂ ∈ (g.dictOf t').keys, ¬ g'.Meet id₁ id₂

/-- In the turn of `id₁` the inner loop has still to go through `inner`. -/
structure Turning (t t' : EntityType) (g : GameObj γ) (id₁ : ℕ) (outer inner : List ℕ)
    (g' : GameObj γ) : Prop extends Settled t t' g (id₁ :: outer) g' where
  /-- The objects to come. -/
  keys' : ∀ id ∈ inner, id ∈ (g.dictOf t').keys
  /-- The others are done, if they had one blood. -/
  clear' : g.OneBlood → ∀ id₂ ∈ (g.dictOf t').keys, id₂ ∉ inner → ¬ g'.Meet id₁ id₂

/-- One turn of the inner loop. -/
theorem Turning.collidePair {outer inner : List ℕ} {id₁ id₂ : ℕ}
    (h : Turning t t' g id₁ outer (id₂ :: inner) g') (hindexed : g.Indexed) (hne : t ≠ t')
    (ht : t ≠ .player) :
    ∃ a g'', GameObj.collidePair id₁ id₂ g' = .ok (a, g'') ∧ Turning t t' g id₁ outer inner g'' := by
  obtain ⟨g'', hrun, hpaired, hworn, hmeet⟩ := h.paired.collidePair hindexed hne ht
    (h.keys id₁ List.mem_cons_self) (h.keys' id₂ List.mem_cons_self)
  refine ⟨(), g'', hrun, ⟨hpaired, h.keys, fun hone a ha hout b hb hab => ?_⟩, fun b hb => ?_,
    fun hone b hb hout hab => ?_⟩
  · exact h.clear hone a ha hout b hb (hworn.meet hab)
  · exact h.keys' b (List.mem_cons_of_mem _ hb)
  · by_cases hbid : b = id₂
    · exact hmeet hone (hbid ▸ hab)
    · refine h.clear' hone b hb (fun hmem => ?_) (hworn.meet hab)
      exact hout ((List.mem_cons.mp hmem).resolve_left hbid)

/-- The inner loop is done with `id₁`. -/
theorem Turning.settled {outer : List ℕ} {id₁ : ℕ} (h : Turning t t' g id₁ outer [] g') :
    Settled t t' g outer g' := by
  refine ⟨h.paired, fun id hid => h.keys id (List.mem_cons_of_mem _ hid), fun hone a ha hout b hb => ?_⟩
  by_cases haid : a = id₁
  · rw [haid]
    exact h.clear' hone b hb List.not_mem_nil
  · refine h.clear hone a ha (fun hmem => ?_) b hb
    exact hout ((List.mem_cons.mp hmem).resolve_left haid)

variable [DictOrder ℕ]

/-- **A collision loop**, in any order of iteration: it does not raise, it takes as much blood from the
one type as from the other, and no objects of the two types collide after it if they had one blood. -/
theorem collide_paired (t t' : EntityType) (hindexed : g.Indexed) (hne : t ≠ t') (ht : t ≠ .player) :
    ∃ g', collide (fun g : GameObj γ => g.dictOf t) (fun g => g.dictOf t') g = .ok ((), g') ∧
      Paired t t' g g' ∧
      (g.OneBlood → ∀ id₁ ∈ (g.dictOf t).keys, ∀ id₂ ∈ (g.dictOf t').keys, ¬ g'.Meet id₁ id₂) := by
  have houter : Ensures (fun g' => Settled t t' g (g.dictOf t).items g')
      ((g.dictOf t).items.forM fun id₁ => do
        let g' ← get
        (g'.dictOf t').items.forM fun id₂ => GameObj.collidePair id₁ id₂)
      fun _ (g' : GameObj γ) => Settled t t' g [] g' := by
    refine Ensures.forM (I := Settled t t' g) (fun id₁ outer => ?_) _
    refine Ensures.get_bind fun g' hg' => ?_
    have hinner : Ensures (Turning t t' g id₁ outer (g.dictOf t').items)
        ((g.dictOf t').items.forM fun id₂ => GameObj.collidePair id₁ id₂)
        fun _ (g' : GameObj γ) => Turning t t' g id₁ outer [] g' := by
      refine Ensures.forM (I := Turning t t' g id₁ outer) (fun id₂ inner g' hg' => ?_) _
      exact hg'.collidePair hindexed hne ht
    -- the dict that is copied in each turn is always the same
    have hdict : g'.dictOf t' = g.dictOf t' := hg'.paired.worn.dictOf t'
    rw [hdict]
    refine hinner.mono ?_ fun _ g' h => h.settled
    rintro _ rfl
    refine ⟨hg', fun id hid => PyDict.mem_items.mp hid, fun _ b hb hout => ?_⟩
    exact absurd (PyDict.mem_items.mpr hb) hout
  have hstart : Settled t t' g (g.dictOf t).items g := by
    refine ⟨.refl t t' g, fun id hid => PyDict.mem_items.mp hid, fun _ a ha hout => ?_⟩
    exact absurd (PyDict.mem_items.mpr ha) hout
  obtain ⟨⟨⟩, g', hrun, hend⟩ := houter g hstart
  exact ⟨g', hrun, hend.paired, fun hone id₁ hid₁ => hend.clear hone id₁ hid₁ List.not_mem_nil⟩

/-! ## Both loops -/

omit [DictOrder ℕ] in
/-- Lost blood does not concern the index. -/
theorem Worn.indexed (h : Worn g g') (hindexed : g.Indexed) : g'.Indexed := by
  have hmem : ∀ id, id ∈ g'.objects ↔ id ∈ g.objects := by
    intro id
    rw [← AList.lookup_isSome, ← AList.lookup_isSome]
    cases he : g.objects.lookup id with
    | none => rw [h.absent id he]
    | some e =>
        obtain ⟨b, -, he'⟩ := h.stored id e he
        rw [he']
        exact iff_of_true rfl rfl
  refine ⟨fun id => ?_, fun id t => ?_, fun id hid => ?_⟩
  · rw [hmem, h.rest]
    exact hindexed.all id
  · rw [h.dictOf t, hindexed.dict]
    cases he : g.objects.lookup id with
    | none => rw [h.absent id he]
    | some e =>
        obtain ⟨b, -, he'⟩ := h.stored id e he
        rw [he']
        simp only [Option.some.injEq, exists_eq_left']
        exact Iff.rfl
  · rw [h.rest]
    exact hindexed.fresh id ((hmem id).mp hid)

omit [DictOrder ℕ] in
/-- Objects of other types keep their blood. -/
theorem Paired.bloodAt_of_other (h : Paired t t' g g') (hindexed : g.Indexed) (t'' : EntityType)
    (hne : t'' ≠ t ∧ t'' ≠ t') {id : ℕ} (hid : id ∈ (g.dictOf t'').keys) : g'.bloodAt id = g.bloodAt id := by
  obtain ⟨e, he, rfl⟩ := (hindexed.dict id t'').mp hid
  rw [bloodAt_eq he, bloodAt_eq (h.spared id e he (Or.inr hne))]

omit [DictOrder ℕ] in
/-- When the objects of a type lost at most one blood each, as many were struck as blood was lost. -/
theorem Worn.card_struck (h : Worn g g') (hindexed : g.Indexed)
    (honce : ∀ id e, g.objects.lookup id = some e → e.type = t → e.blood - 1 ≤ g'.bloodAt id) :
    ((struck t g g').card : ℤ) = bloodLostBy t g g' := by
  refine GameObj.card_struck fun id hid => ?_
  obtain ⟨e, he, htype⟩ := (hindexed.dict id t).mp hid
  obtain ⟨b, hb, he'⟩ := h.stored id e he
  have hle := honce id e he htype
  rw [bloodAt_eq he'] at hle ⊢
  rw [bloodAt_eq he]
  exact ⟨hb, hle⟩

omit [DictOrder ℕ] in
/-- Two loops take at most one blood: what the first hit is dead in the second. -/
theorem Paired.once_trans {t₁ t₁' t₂ t₂' : EntityType} {g₁ g₂ : GameObj γ} (h₁ : Paired t₁ t₁' g g₁)
    (h₂ : Paired t₂ t₂' g₁ g₂) (hone : g.OneBlood) {id : ℕ} {e : Entity}
    (he : g.objects.lookup id = some e) (htype : e.type ≠ .player) : e.blood - 1 ≤ g₂.bloodAt id := by
  obtain ⟨b, hb, he₁⟩ := h₁.worn.stored id e he
  have hle₁ := h₁.once hone id e he htype
  rw [bloodAt_eq he₁] at hle₁
  have hle := hone id e he htype
  by_cases hhit : b ≤ 0
  · have hdead : Entity.isDead { e with blood := b } = true := decide_eq_true hhit
    rw [bloodAt_eq (h₂.spared id _ he₁ (Or.inl hdead))]
    exact hle₁
  · have hle₂ := h₂.once (hone.worn h₁.worn) id _ he₁ htype
    have hsame : b = e.blood := by omega
    exact hsame ▸ hle₂

/-- **The collision pass.** The two loops end in any order of iteration, and only take blood. Bullets
lose as much in the first as enemies do, players as much in the second as enemies do; what is dead
is not hit, and nothing loses blood it does not have. If no bullet and no enemy has more than one
blood, then no collision is left; each bullet and each enemy loses at most one; as many bullets are
hit as enemies are by bullets; and players lose as much blood as enemies are hit by them. -/
theorem collisions_complete (hindexed : g.Indexed) :
    ∃ g₁ g₂, collide (fun g => g.bulletObjects) (fun g => g.enemyObjects) g = .ok ((), g₁) ∧
      collide (fun g => g.enemyObjects) (fun g => g.playerObjects) g₁ = .ok ((), g₂) ∧ Worn g g₂ ∧
      bloodLostBy .bullet g g₂ = bloodLostBy .enemy g g₁ ∧
      bloodLostBy .player g g₂ = bloodLostBy .enemy g₁ g₂ ∧
      (∀ id e, g.objects.lookup id = some e → e.isDead = true → g₁.objects.lookup id = some e) ∧
      (∀ id e, g₁.objects.lookup id = some e → e.isDead = true → g₂.objects.lookup id = some e) ∧
      (∀ id, 0 ≤ g.bloodAt id → 0 ≤ g₂.bloodAt id) ∧
      (g.OneBlood →
        (∀ id₁ ∈ g₂.bulletObjects.keys, ∀ id₂ ∈ g₂.enemyObjects.keys, ¬ g₂.Meet id₁ id₂) ∧
        (∀ id₁ ∈ g₂.enemyObjects.keys, ∀ id₂ ∈ g₂.playerObjects.keys, ¬ g₂.Meet id₁ id₂) ∧
        (∀ id e, g.objects.lookup id = some e → e.type ≠ .player → e.blood - 1 ≤ g₂.bloodAt id) ∧
        (struck .bullet g g₂).card = (struck .enemy g g₁).card ∧
        bloodLostBy .player g g₂ = (struck .enemy g₁ g₂).card) := by
  obtain ⟨g₁, hrun₁, hpaired₁, hclear₁⟩ :=
    collide_paired .bullet .enemy hindexed (by decide) (by decide)
  have hindexed₁ := hpaired₁.worn.indexed hindexed
  obtain ⟨g₂, hrun₂, hpaired₂, hclear₂⟩ :=
    collide_paired .enemy .player hindexed₁ (by decide) (by decide)
  have hworn := hpaired₁.worn.trans hpaired₂.worn
  have hdict₁ := hpaired₁.worn.dictOf
  have hdict := hworn.dictOf
  -- the first loop does not concern the players, and the second not the bullets
  have hbullets : ∀ id ∈ (g.dictOf .bullet).keys, g₂.bloodAt id = g₁.bloodAt id := fun id hid =>
    hpaired₂.bloodAt_of_other hindexed₁ .bullet (by decide) (hdict₁ .bullet ▸ hid)
  have hplayers : ∀ id ∈ (g.dictOf .player).keys, g₁.bloodAt id = g.bloodAt id := fun id hid =>
    hpaired₁.bloodAt_of_other hindexed .player (by decide) hid
  have hlost : bloodLostBy .bullet g g₂ = bloodLostBy .enemy g g₁ := by
    rw [← hpaired₁.lost]
    refine Finset.sum_congr rfl fun id hid => ?_
    rw [hbullets id (List.mem_toFinset.mp hid)]
  have hlost' : bloodLostBy .player g g₂ = bloodLostBy .enemy g₁ g₂ := by
    rw [hpaired₂.lost, bloodLostBy, bloodLostBy, hdict₁]
    refine Finset.sum_congr rfl fun id hid => ?_
    rw [hplayers id (List.mem_toFinset.mp hid)]
  refine ⟨g₁, g₂, hrun₁, hrun₂, hworn, hlost, hlost',
    fun id e he hdead => hpaired₁.spared id e he (Or.inl hdead),
    fun id e he hdead => hpaired₂.spared id e he (Or.inl hdead),
    fun id hnonneg => hpaired₂.nonneg id (hpaired₁.nonneg id hnonneg), fun hone => ?_⟩
  have hone₁ := hone.worn hpaired₁.worn
  refine ⟨fun id₁ hid₁ id₂ hid₂ hmeet => ?_, fun id₁ hid₁ id₂ hid₂ => ?_, fun id e he htype => ?_, ?_, ?_⟩
  · exact hclear₁ hone id₁ (hdict .bullet ▸ hid₁) id₂ (hdict .enemy ▸ hid₂) (hpaired₂.worn.meet hmeet)
  · exact hclear₂ hone₁ id₁ (hpaired₂.worn.dictOf .enemy ▸ hid₁) id₂ (hpaired₂.worn.dictOf .player ▸ hid₂)
  · exact hpaired₁.once_trans hpaired₂ hone he htype
  · have hcard : ((struck .bullet g g₂).card : ℤ) = (struck .enemy g g₁).card := by
      rw [hworn.card_struck hindexed fun id e he ht =>
          hpaired₁.once_trans hpaired₂ hone he (by rw [ht]; decide),
        hpaired₁.worn.card_struck hindexed fun id e he ht => hpaired₁.once hone id e he (by rw [ht]; decide)]
      exact hlost
    exact_mod_cast hcard
  · rw [hlost', hpaired₂.worn.card_struck hindexed₁ fun id e he ht =>
      hpaired₂.once hone₁ id e he (by rw [ht]; decide)]

end Loops

/-! ## A bullet and an enemy in the same place -/

section SamePlace

attribute [local instance] DictOrder.byInsertion

/-- A bullet and an enemy in the same place, with as much blood each. -/
def samePlace (blood : ℤ) : GameObj Unit :=
  ((GameObj.init 1 ()).create { initBullet 100 100 with blood := blood }).create
    { initBullet 100 100 with blood := blood, body := .enemy 10 }

theorem samePlace_indexed (blood : ℤ) : (samePlace blood).Indexed :=
  ((consistent_init 1 ()).indexed.store _).store _

/-- With one blood each, which is what they are made with, both are dead at the end. -/
theorem collisions_complete_samePlace : ∃ g₁ g₂,
    collide (fun g => g.bulletObjects) (fun g => g.enemyObjects) (samePlace 1) = .ok ((), g₁) ∧
      collide (fun g => g.enemyObjects) (fun g => g.playerObjects) g₁ = .ok ((), g₂) ∧
      (∀ id₁ ∈ g₂.bulletObjects.keys, ∀ id₂ ∈ g₂.enemyObjects.keys, ¬ g₂.Meet id₁ id₂) ∧
      (struck .bullet (samePlace 1) g₂).card = (struck .enemy (samePlace 1) g₁).card := by
  obtain ⟨g₁, g₂, hrun₁, hrun₂, -, -, -, -, -, -, hclear⟩ := collisions_complete (samePlace_indexed 1)
  have hone : (samePlace 1).OneBlood := by
    intro id e he _
    rw [samePlace, lookup_create, lookup_create] at he
    split_ifs at he
    · obtain rfl := Option.some.inj he
      exact le_rfl
    · obtain rfl := Option.some.inj he
      exact le_rfl
    · exact absurd he.symm (Option.some_ne_none e)
  obtain ⟨hmeet, -, -, hcard, -⟩ := hclear hone
  exact ⟨g₁, g₂, hrun₁, hrun₂, hmeet, hcard⟩

/-- **A collision is left** between a bullet and an enemy that have two blood each. No constructor gives a
bullet or an enemy more than one, but the loops are the same for any blood. -/
theorem overlap_left :
    (samePlace 2).Indexed ∧ ∃ g₁ g₂,
      collide (fun g => g.bulletObjects) (fun g => g.enemyObjects) (samePlace 2) = .ok ((), g₁) ∧
      collide (fun g => g.enemyObjects) (fun g => g.playerObjects) g₁ = .ok ((), g₂) ∧
      ∃ id₁ ∈ g₂.bulletObjects.keys, ∃ id₂ ∈ g₂.enemyObjects.keys, g₂.Meet id₁ id₂ := by
  have hrun : endsIn (do
        collide (fun g => g.bulletObjects) fun g => g.enemyObjects
        collide (fun g => g.enemyObjects) fun g => g.playerObjects : Method Unit Unit) (samePlace 2)
      (fun g => decide (1 ∈ g.bulletObjects.keys) && decide (2 ∈ g.enemyObjects.keys) &&
        (g.objects.lookup 1).any fun e₁ => (g.objects.lookup 2).any e₁.meets) = true := by
    decide +kernel
  obtain ⟨⟨⟩, g₂, hloops, hstate⟩ := endsIn_eq_true hrun
  obtain ⟨⟨⟩, g₁, hrun₁, hrun₂⟩ := bind_eq_ok.mp hloops
  simp only [Bool.and_eq_true, decide_eq_true_eq, Option.any_eq_true] at hstate
  obtain ⟨⟨hbullet, henemy⟩, e₁, he₁, e₂, he₂, hmeets⟩ := hstate
  exact ⟨samePlace_indexed 2, g₁, g₂, hrun₁, hrun₂, 1, hbullet, 2, henemy, e₁, e₂, he₁, he₂, hmeets⟩

end SamePlace

end GameObj

end FrameSync.Client
