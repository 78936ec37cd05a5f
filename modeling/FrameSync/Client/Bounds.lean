import FrameSync.Client.EntityIndex
import FrameSync.Client.Turn
import Mathlib.Algebra.Order.BigOperators.Group.List
import Mathlib.Order.Interval.Finset.Nat

/-! # The world stays bounded

An enemy falls by at least 5 in each `update_ctrl_once` and is removed below the screen, and at most one
enemy comes in each: so the younger the enemies above it, the lower an enemy is (`Spaced.enemies`). A
bullet rises by 3 and is removed above the screen, and each player fires at most once
(`Spaced.bullets`). Both bounds follow from the oldest object (`card_le_of_younger`). -/

namespace FrameSync.Client

variable {γ : Type}

/-- A set of ids is no larger than what bounds the number of ids above each. -/
theorem card_le_of_younger {S : Finset ℕ} {b : ℕ} (h : ∀ id ∈ S, (S.filter (id < ·)).card < b) :
    S.card ≤ b := by
  rcases S.eq_empty_or_nonempty with rfl | hne
  · exact Nat.zero_le b
  · -- all ids but the least are above it
    have hrest : S.erase (S.min' hne) ⊆ S.filter (S.min' hne < ·) := by
      intro id hid
      obtain ⟨hneq, hmem⟩ := Finset.mem_erase.mp hid
      exact Finset.mem_filter.mpr ⟨hmem, lt_of_le_of_ne (S.min'_le id hmem) hneq.symm⟩
    have hcard := Finset.card_le_card hrest
    rw [Finset.card_erase_of_mem (S.min'_mem hne)] at hcard
    have hlt := h _ (S.min'_mem hne)
    omega

/-- An object that is not a player only moves. -/
theorem Entity.advance_eq_moveBy {e : Entity} {dir : ℤ} (htype : e.type ≠ .player)
    (hdir : e.dir = some dir) (hne : dir ≠ 0) : e.advance = e.moveBy dir := by
  unfold advance
  rw [hdir]
  simp only [if_neg hne, if_neg htype]

namespace GameObj

/-! ## Players -/

/-- The places where the server lets players enter: `x` in 1..800, `z` in 550..600. -/
def OnStart (x z : ℤ) : Prop := (1 ≤ x ∧ x ≤ screenWidth) ∧ 550 ≤ z ∧ z ≤ screenHeight

/-- **Step lemma**: no operation takes a player off the screen. -/
theorem Inside.step {g g' : GameObj γ} {o : EntityOp} (hin : g.Inside) (h : EntityStep OnStart g o g') :
    g'.Inside := by
  -- Every operation writes an object, creates one or takes one out.
  have put : ∀ {g : GameObj γ} {id : ℕ} {e e' : Entity}, g.Inside → g.objects.lookup id = some e →
      (e'.type = .player → e'.isOutScreen = false) → (g.put id e').Inside := by
    intro g id e e' hin he he' id' e'' hlookup htype
    rw [lookup_put he] at hlookup
    split_ifs at hlookup with heq
    · obtain rfl := Option.some.inj hlookup
      exact he' htype
    · exact hin id' e'' hlookup htype
  have create : ∀ {e : Entity}, (e.type = .player → e.isOutScreen = false) → (g.create e).Inside := by
    intro e he id' e' hlookup htype
    rw [lookup_create] at hlookup
    split_ifs at hlookup
    · obtain rfl := Option.some.inj hlookup
      exact he htype
    · exact hin id' e' hlookup htype
  have unstore : ∀ {g : GameObj γ} (id : ℕ) (e : Entity), g.Inside → (g.unstore id e).Inside := by
    intro g id e hin id' e' hlookup htype
    rw [lookup_unstore] at hlookup
    split_ifs at hlookup
    exact hin id' e' hlookup htype
  cases h with
  | drew | seeded | began | ctrlOnce => exact hin
  | spawned h =>
      refine create fun htype => ?_
      rw [Entity.type, h.body] at htype
      cases htype
  | fired =>
      refine create fun htype => ?_
      change EntityType.bullet = .player at htype
      cases htype
  | entered _ hN _ =>
      -- A player enters on its start place, which is on the screen.
      refine create fun _ => Entity.isOutScreen_eq_false.mpr ?_
      obtain ⟨⟨hx, hx'⟩, hz, hz'⟩ := hN
      omega
  | destroyed => exact unstore _ _ hin
  | removed =>
      refine unstore _ _ fun id e he => ?_
      rw [objects_rewarded] at he
      exact hin id e he
  | moved h _ =>
      -- `update` stops a player at the border.
      exact put hin h fun htype =>
        Entity.isOutScreen_advance (Entity.type_advance _ ▸ htype) (hin _ _ h (Entity.type_advance _ ▸ htype))
  | turned h hplayer hpos _ _ _ =>
      -- Only the direction changes here.
      refine put hin h fun _ => ?_
      have hout := hin _ _ h hplayer
      rw [Entity.isOutScreen_eq_false] at hout ⊢
      rwa [hpos.1, hpos.2]
  | hit h₁ h₂ _ _ hfoes =>
      have hon : ∀ e : Entity, e.onHit.isOutScreen = e.isOutScreen := fun _ => rfl
      exact put (put hin h₁ fun htype => (hon _).trans (hin _ _ h₁ htype)) (hfoes.lookup_put h₁ h₂ _)
        fun htype => (hon _).trans (hin _ _ h₂ htype)

/-! ## Enemies and bullets -/

/-- How many objects of a type have an id above `id`. -/
def younger (t : EntityType) (g : GameObj γ) (id : ℕ) : ℕ :=
  ((g.dictOf t).keys.toFinset.filter (id < ·)).card

/-- The enemies before they move: each has fallen past the younger ones. -/
def Falling (g : GameObj γ) : Prop :=
  ∀ id e, g.objects.lookup id = some e → e.type = .enemy →
    e.dir = some dirDown ∧ 20 ≤ e.speed ∧ 1 + 5 * (g.younger .enemy id : ℤ) ≤ e.z

/-- The bullets, when there were never more than `n` players: after `a` moves fewer than
`n * (a + 1)` are younger. -/
def Rising (n : ℕ) (g : GameObj γ) : Prop :=
  ∀ id e, g.objects.lookup id = some e → e.type = .bullet →
    e.dir = some dirUp ∧ e.speed = 15 ∧ ∃ a : ℕ, e.z + 3 * a ≤ screenHeight ∧
      g.younger .bullet id < n * (a + 1) ∧ (a = 0 ∨ 0 ≤ e.z + 3)

/-- The enemies and the bullets between two calls of `update_ctrl_once`. -/
structure Spaced (n : ℕ) (g : GameObj γ) : Prop where
  /-- The enemies moved from the screen, where they had fallen past the younger ones. -/
  enemies : ∀ id e, g.objects.lookup id = some e → e.type = .enemy →
    e.dir = some dirDown ∧ 20 ≤ e.speed ∧ 1 + 5 * (g.younger .enemy id : ℤ) ≤ e.z - e.speed / 4 ∧
      e.z - e.speed / 4 ≤ screenHeight
  /-- The bullets -/
  bullets : g.Rising n

/-- The dict of a type as a set. -/
theorem card_dictOf (g : GameObj γ) (t : EntityType) :
    (g.dictOf t).keys.toFinset.card = (g.dictOf t).keys.length :=
  List.toFinset_card_of_nodup (g.dictOf t).nodup_keys

/-- **The bounds**: at most 120 enemies, and at most 202 bullets for each of `n` players. -/
theorem Spaced.crowd {n : ℕ} {g : GameObj γ} (h : g.Spaced n) (hindexed : g.Indexed) :
    g.enemyObjects.keys.length ≤ 120 ∧ g.bulletObjects.keys.length ≤ 202 * n := by
  constructor
  · have hcard := g.card_dictOf .enemy
    refine hcard ▸ card_le_of_younger fun id hid => ?_
    obtain ⟨e, he, htype⟩ := (hindexed.dict id .enemy).mp (List.mem_toFinset.mp hid)
    obtain ⟨-, -, hlow, hhigh⟩ := h.enemies id e he htype
    have hheight : screenHeight = 600 := rfl
    rw [younger] at hlow
    omega
  · have hcard := g.card_dictOf .bullet
    refine hcard ▸ card_le_of_younger fun id hid => ?_
    obtain ⟨e, he, htype⟩ := (hindexed.dict id .bullet).mp (List.mem_toFinset.mp hid)
    obtain ⟨-, -, a, hhigh, hyounger, hlow⟩ := h.bullets id e he htype
    have hheight : screenHeight = 600 := rfl
    have hage : a + 1 ≤ 202 := by omega
    have hmul := Nat.mul_le_mul_left n hage
    rw [younger] at hyounger
    omega

/-- With the ids of `S` added, at most so many more are younger. -/
theorem younger_le {t : EntityType} {g g' : GameObj γ} (S : Finset ℕ)
    (h : ∀ id ∈ (g'.dictOf t).keys, id ∈ (g.dictOf t).keys ∨ id ∈ S) (id : ℕ) :
    g'.younger t id ≤ g.younger t id + (S.filter (id < ·)).card := by
  have hsub : (g'.dictOf t).keys.toFinset.filter (id < ·)
      ⊆ (g.dictOf t).keys.toFinset.filter (id < ·) ∪ S.filter (id < ·) := by
    intro id' hid'
    obtain ⟨hmem, hlt⟩ := Finset.mem_filter.mp hid'
    rw [Finset.mem_union, Finset.mem_filter, Finset.mem_filter]
    exact (h id' (List.mem_toFinset.mp hmem)).imp (fun h => ⟨List.mem_toFinset.mpr h, hlt⟩) fun h => ⟨h, hlt⟩
  exact (Finset.card_le_card hsub).trans (Finset.card_union_le _ _)

/-- With none added, no more are younger. -/
theorem younger_mono {t : EntityType} {g g' : GameObj γ}
    (h : ∀ id ∈ (g'.dictOf t).keys, id ∈ (g.dictOf t).keys) (id : ℕ) :
    g'.younger t id ≤ g.younger t id := younger_le ∅ (fun id hid => Or.inl (h id hid)) id

/-- An enemy comes, or none. -/
theorem Spaced.falling {n : ℕ} {g g' : GameObj γ} (h : g.Spaced n) (hindexed : g.Indexed)
    {gen : γ} (hspawn : g' = { g with gen := gen } ∨ ∃ e, NewEnemy e ∧ g' = create e { g with gen := gen }) :
    g'.Falling ∧ g'.Rising n := by
  have hdict : ∀ t, dictOf { g with gen := gen } t = g.dictOf t := fun t => by cases t <;> rfl
  -- an enemy has fallen by a quarter of its speed, which is past one more
  have hpast : ∀ id e, g.objects.lookup id = some e → e.type = .enemy →
      e.dir = some dirDown ∧ 20 ≤ e.speed ∧ 1 + 5 * ((g.younger .enemy id : ℤ) + 1) ≤ e.z := by
    intro id e he htype
    obtain ⟨hdir, hspeed, hlow, -⟩ := h.enemies id e he htype
    exact ⟨hdir, hspeed, by omega⟩
  rcases hspawn with rfl | ⟨e, hnew, rfl⟩
  · have hyounger : ∀ t id, younger t { g with gen := gen } id = g.younger t id := by
      intro t id
      rw [younger, younger, hdict]
    refine ⟨fun id e he htype => ?_, fun id e he htype => ?_⟩
    · obtain ⟨hdir, hspeed, hlow⟩ := hpast id e he htype
      refine ⟨hdir, hspeed, ?_⟩
      rw [hyounger]
      omega
    · rw [hyounger]
      exact h.bullets id e he htype
  · have htype : e.type = .enemy := by rw [Entity.type, hnew.body]
    have henemies : ∀ id ∈ (dictOf (create e { g with gen := gen }) .enemy).keys,
        id ∈ (g.dictOf .enemy).keys ∨ id ∈ ({g.entityId + 1} : Finset ℕ) := by
      intro id hid
      change id ∈ (if e.type = .enemy then g.enemyObjects.insert (g.entityId + 1) else g.enemyObjects).keys
        at hid
      rw [if_pos htype, PyDict.mem_keys_insert] at hid
      exact hid.symm.imp_right fun h => Finset.mem_singleton.mpr h
    have hbullets : ∀ id ∈ (dictOf (create e { g with gen := gen }) .bullet).keys,
        id ∈ (g.dictOf .bullet).keys := by
      intro id hid
      change id ∈ (if e.type = .bullet then g.bulletObjects.insert (g.entityId + 1) else g.bulletObjects).keys
        at hid
      rwa [if_neg (by rw [htype]; decide)] at hid
    have hcard : ∀ id, (({g.entityId + 1} : Finset ℕ).filter (id < ·)).card ≤ 1 := fun id =>
      (Finset.card_filter_le _ _).trans_eq (Finset.card_singleton _)
    refine ⟨fun id e' he' htype' => ?_, fun id e' he' htype' => ?_⟩
    · rw [lookup_create] at he'
      split_ifs at he' with hid
      · obtain rfl := Option.some.inj he'
        refine ⟨hnew.dir, hnew.speed, ?_⟩
        change id = g.entityId + 1 at hid
        -- no enemy is younger than the new one
        have hnone : younger .enemy (create e { g with gen := gen }) id = 0 := by
          rw [younger, Finset.card_eq_zero, Finset.filter_eq_empty_iff]
          intro id' hid'
          rcases henemies id' (List.mem_toFinset.mp hid') with hold | hnext
          · have hle := hindexed.fresh id' (hindexed.alive_dictOf .enemy id' hold)
            omega
          · have heq := Finset.mem_singleton.mp hnext
            omega
        have hz := hnew.z
        omega
      · obtain ⟨hdir, hspeed, hlow⟩ := hpast id e' he' htype'
        have hle := younger_le _ henemies id
        have hone := hcard id
        exact ⟨hdir, hspeed, by omega⟩
    · rw [lookup_create] at he'
      split_ifs at he' with hid
      · obtain rfl := Option.some.inj he'
        rw [htype] at htype'
        cases htype'
      · obtain ⟨hdir, hspeed, a, hhigh, hyounger, hlow⟩ := h.bullets id e' he' htype'
        exact ⟨hdir, hspeed, a, hhigh, (younger_mono hbullets id).trans_lt hyounger, hlow⟩

/-- Lost blood changes nothing for the enemies. -/
theorem Worn.falling {g g' : GameObj γ} (h : Worn g g') (hg : g.Falling) : g'.Falling := by
  intro id e' he' htype
  obtain ⟨e, b, he, -, rfl⟩ := h.before he'
  obtain ⟨hdir, hspeed, hlow⟩ := hg id e he htype
  refine ⟨hdir, hspeed, ?_⟩
  rw [younger, h.dictOf]
  exact hlow

/-- Nor for the bullets. -/
theorem Worn.rising {n : ℕ} {g g' : GameObj γ} (h : Worn g g') (hg : g.Rising n) : g'.Rising n := by
  intro id e' he' htype
  obtain ⟨e, b, he, -, rfl⟩ := h.before he'
  obtain ⟨hdir, hspeed, a, hhigh, hyounger, hlow⟩ := hg id e he htype
  refine ⟨hdir, hspeed, a, hhigh, ?_, hlow⟩
  rw [younger, h.dictOf]
  exact hyounger

/-- **All objects are updated**: the enemies and bullets that are left have moved once. -/
theorem Swept.spaced {n : ℕ} {g g' : GameObj γ} (h : Swept g 0 [] g') (hindexed : g.Indexed)
    (hindexed' : g'.Indexed) (hplayers : g.playerObjects.keys.length ≤ n) (hfalling : g.Falling)
    (hrising : g.Rising n) : g'.Spaced n := by
  have hheight : screenHeight = 600 := rfl
  have hcount := h.count
  have hgrows := h.grows
  have old : ∀ id t e', id ≤ g.entityId → g'.objects.lookup id = some e' → e'.type = t → t ≠ .player →
      ∃ e, g.objects.lookup id = some e ∧ e.type = t ∧ e.isOutScreen = false ∧ e' = e.advance := by
    intro id t e' hle he' htype ht
    obtain ⟨e, he, hstays, htype', hadvance⟩ := h.moved id e' hle List.not_mem_nil he'
    rw [htype] at htype'
    exact ⟨e, he, htype'.symm, (Bool.or_eq_false_iff.mp hstays).2, hadvance (htype' ▸ ht)⟩
  constructor
  · have henemies : ∀ id ∈ (g'.dictOf .enemy).keys, id ∈ (g.dictOf .enemy).keys := by
      intro id hid
      obtain ⟨e', he', htype⟩ := (hindexed'.dict id .enemy).mp hid
      by_cases hle : id ≤ g.entityId
      · obtain ⟨e, he, ht, -⟩ := old id .enemy e' hle he' htype (by decide)
        exact (hindexed.dict id .enemy).mpr ⟨e, he, ht⟩
      · obtain ⟨x, z, -, rfl⟩ := h.fired id e' (not_le.mp hle) he'
        cases htype
    intro id e' he' htype
    by_cases hle : id ≤ g.entityId
    · obtain ⟨e, he, ht, hscreen, rfl⟩ := old id .enemy e' hle he' htype (by decide)
      obtain ⟨hdir, hspeed, hlow⟩ := hfalling id e he ht
      have hyounger := younger_mono henemies id
      have hz := (Entity.isOutScreen_eq_false.mp hscreen).2.2
      rw [Entity.advance_eq_moveBy (by rw [ht]; decide) hdir (by decide)]
      refine ⟨hdir, hspeed, ?_, ?_⟩
      · show _ ≤ e.z + e.speed / 4 - e.speed / 4
        omega
      · show e.z + e.speed / 4 - e.speed / 4 ≤ _
        omega
    · obtain ⟨x, z, -, rfl⟩ := h.fired id e' (not_le.mp hle) he'
      cases htype
  · have hbullets : ∀ id ∈ (g'.dictOf .bullet).keys,
        id ∈ (g.dictOf .bullet).keys ∨ id ∈ Finset.Ioc g.entityId g'.entityId := by
      intro id hid
      obtain ⟨e', he', htype⟩ := (hindexed'.dict id .bullet).mp hid
      by_cases hle : id ≤ g.entityId
      · obtain ⟨e, he, ht, -⟩ := old id .bullet e' hle he' htype (by decide)
        exact Or.inl ((hindexed.dict id .bullet).mpr ⟨e, he, ht⟩)
      · have hfresh := hindexed'.fresh id (hindexed'.alive_dictOf .bullet id hid)
        exact Or.inr (Finset.mem_Ioc.mpr ⟨not_le.mp hle, hfresh⟩)
    intro id e' he' htype
    by_cases hle : id ≤ g.entityId
    · obtain ⟨e, he, ht, hscreen, rfl⟩ := old id .bullet e' hle he' htype (by decide)
      obtain ⟨hdir, hspeed, a, hhigh, hyounger, -⟩ := hrising id e he ht
      have hmore := younger_le _ hbullets id
      have hcard : ((Finset.Ioc g.entityId g'.entityId).filter (id < ·)).card ≤ n := by
        have hle := Finset.card_filter_le (Finset.Ioc g.entityId g'.entityId) (id < ·)
        rw [Nat.card_Ioc] at hle
        omega
      have hz := (Entity.isOutScreen_eq_false.mp hscreen).2.1
      rw [Entity.advance_eq_moveBy (by rw [ht]; decide) hdir (by decide)]
      have hmoved : (e.moveBy dirUp).z = e.z - 3 := by
        show e.z - e.speed / 4 = _
        rw [hspeed]
        rfl
      refine ⟨hdir, hspeed, a + 1, ?_, ?_, Or.inr ?_⟩
      · rw [hmoved]
        push_cast
        omega
      · rw [Nat.mul_succ]
        omega
      · rw [hmoved]
        omega
    · obtain ⟨x, z, hz, rfl⟩ := h.fired id e' (not_le.mp hle) he'
      refine ⟨rfl, rfl, 0, ?_, ?_, Or.inl rfl⟩
      · show z + 3 * (0 : ℕ) ≤ _
        omega
      · -- the younger ones are new as well
        have hsub : (g'.dictOf .bullet).keys.toFinset.filter (id < ·) ⊆ Finset.Ioc id g'.entityId := by
          intro id' hid'
          obtain ⟨hmem, hlt⟩ := Finset.mem_filter.mp hid'
          have hfresh := hindexed'.fresh id' (hindexed'.alive_dictOf .bullet id' (List.mem_toFinset.mp hmem))
          exact Finset.mem_Ioc.mpr ⟨hlt, hfresh⟩
        have hcard := Finset.card_le_card hsub
        rw [Nat.card_Ioc] at hcard
        have hid := hindexed'.fresh id (AList.lookup_isSome.mp (by rw [he']; rfl))
        rw [younger]
        omega

/-! ## What else happens in a run -/

/-- The enemies and bullets of a game were in another one. -/
def MobsOf (g g' : GameObj γ) : Prop :=
  ∀ id e, g'.objects.lookup id = some e → e.type ≠ .player → g.objects.lookup id = some e

/-- With fewer of them the bounds stay. -/
theorem Spaced.of_mobs {n : ℕ} {g g' : GameObj γ} (h : g.Spaced n) (hmobs : MobsOf g g')
    (hindexed : g.Indexed) (hindexed' : g'.Indexed) : g'.Spaced n := by
  have hkeys : ∀ t, t ≠ .player → ∀ id ∈ (g'.dictOf t).keys, id ∈ (g.dictOf t).keys := by
    rintro t ht id hid
    obtain ⟨e, he, rfl⟩ := (hindexed'.dict id t).mp hid
    exact (hindexed.dict id e.type).mpr ⟨e, hmobs id e he ht, rfl⟩
  constructor
  · intro id e he htype
    obtain ⟨hdir, hspeed, hlow, hhigh⟩ := h.enemies id e (hmobs id e he (by rw [htype]; decide)) htype
    have hyounger := younger_mono (hkeys .enemy (by decide)) id
    exact ⟨hdir, hspeed, by omega, hhigh⟩
  · intro id e he htype
    obtain ⟨hdir, hspeed, a, hhigh, hyounger, hlow⟩ :=
      h.bullets id e (hmobs id e he (by rw [htype]; decide)) htype
    exact ⟨hdir, hspeed, a, hhigh, (younger_mono (hkeys .bullet (by decide)) id).trans_lt hyounger, hlow⟩

/-- An entry leaves the enemies and the bullets alone. -/
theorem MobsOf.entryStep {N : ℤ → ℤ → Prop} {pid : Pid} {action : ℤ} {g₀ g g' : GameObj γ} {o : EntityOp}
    (h : MobsOf g₀ g) (hstep : EntryStep N pid action g o g') : MobsOf g₀ g' := by
  have hconcerns := hstep.concerns
  have hcreate : ∀ e : Entity, e.pid? = some pid → MobsOf g₀ (g.create e) := by
    intro e hpid id e' he' htype
    rw [lookup_create] at he'
    split_ifs at he'
    · obtain rfl := Option.some.inj he'
      exact absurd (type_of_pid? hpid) htype
    · exact h id e' he' htype
  have hput : ∀ id (e e' : Entity), g.objects.lookup id = some e → e'.pid? = some pid →
      MobsOf g₀ (g.put id e') := by
    intro id e e' he hpid id' e'' he'' htype
    rw [lookup_put he] at he''
    split_ifs at he''
    · obtain rfl := Option.some.inj he''
      exact absurd (type_of_pid? hpid) htype
    · exact h id' e'' he'' htype
  -- An entry writes or creates the player it is about, or takes it out.
  cases hstep.step with
  | drew | seeded | began | removed | hit | ctrlOnce => exact hconcerns.elim
  | spawned | fired | entered => exact hcreate _ hconcerns
  | destroyed =>
      intro id' e' he' htype
      rw [lookup_unstore] at he'
      split_ifs at he'
      exact h id' e' he' htype
  | moved he _ => exact hput _ _ _ he hconcerns
  | turned he _ _ _ _ _ => exact hput _ _ _ he hconcerns

/-- The end of a game only destroys. -/
theorem MobsOf.mobStep {N : ℤ → ℤ → Prop} {g₀ g g' : GameObj γ} {o : EntityOp}
    (h : MobsOf g₀ g) (hstep : MobStep N g o g') : MobsOf g₀ g' := by
  obtain ⟨hstep, id, e, rfl, -⟩ := hstep
  cases hstep with
  | destroyed =>
      intro id' e' he' htype
      rw [lookup_unstore] at he'
      split_ifs at he'
      exact h id' e' he' htype

/-- What is known of every state of a run: there are never more than `n` players. -/
structure Known (n : ℕ) (g : GameObj γ) : Prop where
  /-- It is consistent. -/
  consistent : g.Consistent
  /-- The players are on the screen. -/
  inside : g.Inside
  /-- There are at most so many. -/
  players : g.playerObjects.keys.length ≤ n

/-- The bounds at the end of an `update_ctrl_once`. -/
def Crowd (n : ℕ) (o : EntityOp) (g : GameObj γ) : Prop :=
  o = .ctrlOnce → g.enemyObjects.keys.length ≤ 120 ∧ g.bulletObjects.keys.length ≤ 202 * n

end GameObj

namespace Observing

open GameObj Observed

variable {n : ℕ}

section Frame

variable [PyRandom γ] [DictOrder ℕ]

/-- **Turn lemma**: `update_ctrl_once` keeps the enemies and bullets spaced, and so the crowd small. -/
theorem within_updateCtrlOnce : Within (Known n) (Crowd n) (Spaced n)
    (updateCtrlOnce : Observing γ Unit) fun _ g => g.Spaced n ∧ g.DeadIn [] := by
  have hturn : ∀ (g : GameObj γ) o g', TurnStep g o g' → Crowd n o g' := by
    rintro g o g' hstep rfl
    exact hstep.elim
  -- A collision moves nothing and creates nothing; it may only wear down what is there.
  have hcollide : ∀ t t' : EntityType, t ≠ t' → t ≠ .player →
      Within (Known n) (Crowd n) (fun g => g.Falling ∧ g.Rising n)
        (collide (fun g : GameObj γ => g.dictOf t) fun g => g.dictOf t')
        fun _ g => g.Falling ∧ g.Rising n := by
    refine fun t t' hne ht => Within.of_traces (fun g hg a g' hrun => ?_) hturn
    obtain ⟨hknown, hfalling, hrising⟩ := hg
    obtain ⟨hpath, hworn⟩ := turn_collide_worn hknown.consistent.indexed t t' hne ht g rfl a g' hrun
    exact ⟨hpath, hworn.falling hfalling, hworn.rising hrising⟩
  refine Within.bind (Q := fun _ g => g.Falling ∧ g.Rising n)
    (Within.of_traces (fun g hg a g' hrun => ?_) hturn) fun _ => ?_
  · obtain ⟨hpath, gen, hspawn⟩ := turn_spawnEnemy g g rfl a g' hrun
    exact ⟨hpath, hg.2.falling hg.1.consistent.indexed hspawn⟩
  refine (hcollide .bullet .enemy (by decide) (by decide)).bind fun _ => ?_
  refine (hcollide .enemy .player (by decide) (by decide)).bind fun _ => ?_
  refine Within.bind (Q := fun _ g => g.Spaced n ∧ g.DeadIn [])
    (Within.of_traces (fun g hg a g' hrun => ?_) hturn) fun _ => Within.op fun g hg hspaced a g' hrun _ => ?_
  · obtain ⟨hknown, hfalling, hrising⟩ := hg
    have hindexed := hknown.consistent.indexed
    obtain ⟨hpath, hswept⟩ := turn_updateAll hindexed hknown.inside g rfl a g' hrun
    obtain ⟨-, hcons, hdead⟩ :=
      traces_updateAll (N := fun _ _ => True) g hknown.consistent a g' hrun
    exact ⟨hpath, hswept.spaced hindexed hcons.indexed hknown.players hfalling hrising, hdead⟩
  · obtain rfl := (Prod.mk.inj (Except.ok.inj hrun)).2
    exact ⟨fun _ => hspaced.1.crowd hg.consistent.indexed, hspaced⟩

/-- An entry of a frame, with its `update_ctrl_once`. -/
theorem within_updateEntry (ctrl : CtrlInfo) :
    Within (Known n) (Crowd n) (fun g => g.Spaced n ∧ g.DeadIn []) (updateEntry ctrl : Observing γ Unit)
      fun _ g => g.Spaced n ∧ g.DeadIn [] := by
  refine Within.bind (Within.of_traces (R := fun g o g' => ∃ pid action, ctrl.pid = some pid ∧
    ctrl.action = some action ∧ EntryStep (fun _ _ => True) pid action g o g')
    (fun g hg a g' hrun => ?_) ?_) fun _ => within_updateCtrlOnce
  · obtain ⟨hknown, hspaced, hdead⟩ := hg
    obtain ⟨hpath, hcons, -⟩ :=
      traces_act (placed_anywhere ctrl) g ⟨hknown.consistent, hdead⟩ a g' hrun
    refine ⟨hpath, hspaced.of_mobs ?_ hknown.consistent.indexed hcons.indexed⟩
    refine (hpath.forall_states (I := MobsOf g) (fun _ _ h _ => h) ?_).2
    rintro t o t' hmobs ⟨pid, action, -, -, hstep⟩
    exact hmobs.entryStep hstep
  · rintro g o g' ⟨pid, action, -, -, hstep⟩ rfl
    exact hstep.concerns.elim

/-- A frame -/
theorem within_updateFrame (msg : FrameInfo) :
    Within (Known n) (Crowd n) (fun g => g.Spaced n ∧ g.DeadIn []) (updateFrame msg : Observing γ Unit)
      fun _ g => g.Spaced n ∧ g.DeadIn [] := by
  refine Within.bind (Q := fun _ => Spaced n) (Within.op fun g hg hspaced a g' hrun hg' => ?_) fun _ =>
    within_updateCtrlOnce.bind fun _ => Within.forM fun ctrl _ => within_updateEntry ctrl
  obtain rfl := (Prod.mk.inj (Except.ok.inj hrun)).2
  refine ⟨fun h => EntityOp.noConfusion h, ?_⟩
  exact hspaced.1.of_mobs (fun _ _ h _ => h) hg.consistent.indexed hg'.consistent.indexed

/-- **What a client calls keeps the bounds.** -/
theorem within_call (a : Action) :
    Within (Known n) (Crowd n) (fun g => g.Spaced n ∧ g.DeadIn []) (call a : Observing γ Unit)
      fun _ g => g.Spaced n ∧ g.DeadIn [] := by
  cases a with
  | nothing =>
      refine Within.of_traces (R := TurnStep) (Traces.pure fun g hg => hg.2) ?_
      rintro g o g' hstep rfl
      exact hstep.elim
  | seed rndseed =>
      rw [call, setRndSeed]
      refine Within.op fun g hg hspaced a g' hrun hg' => ?_
      obtain rfl := (Prod.mk.inj (Except.ok.inj hrun)).2
      refine ⟨fun h => EntityOp.noConfusion h, ?_, hspaced.2⟩
      exact hspaced.1.of_mobs (fun _ _ h _ => h) hg.consistent.indexed hg'.consistent.indexed
  | frame data => exact within_updateFrame data
  | finish =>
      refine Within.of_traces (R := MobStep fun _ _ => True) (fun g hg a g' hrun => ?_) ?_
      · obtain ⟨hknown, hspaced, hdead⟩ := hg
        obtain ⟨hpath, hcons, hdead'⟩ :=
          traces_finish g ⟨hknown.consistent, hdead⟩ a g' hrun
        refine ⟨hpath, hspaced.of_mobs ?_ hknown.consistent.indexed hcons.indexed, hdead'⟩
        exact (hpath.forall_states (I := MobsOf g) (fun _ _ h _ => h) fun t o t' hmobs hstep =>
          hmobs.mobStep hstep).2
      · rintro g o g' ⟨-, id, e, ho, -⟩ rfl
        exact EntityOp.noConfusion ho

end Frame

end Observing

namespace Fsm

open GameObj

section Run

variable [PyRandom γ] [DictOrder ℕ]

/-- The bounds along a run. -/
theorem crowd_run {n : ℕ} {pid : Pid} {gen : γ} {msg : Loginsuc} {tr : List (Fsm γ × Event)}
    {c : Fsm γ} (h : Run step (Fsm.init pid gen msg) tr c) (hknown : ∀ x ∈ ops tr, x.2.Known n) :
    c.game.Known n ∧ (∀ x ∈ ops tr, Crowd n x.1 x.2) ∧ c.game.Spaced n ∧ c.game.DeadIn [] := by
  revert hknown
  refine h.invariant (P := fun tr c => (∀ x ∈ ops tr, x.2.Known n) → c.game.Known n ∧
    (∀ x ∈ ops tr, Crowd n x.1 x.2) ∧ c.game.Spaced n ∧ c.game.DeadIn []) ?_ ?_
  · intro _
    have hnone : ∀ id (e : Entity), (GameObj.init pid gen).objects.lookup id ≠ some e := by
      intro id e he
      cases he
    refine ⟨⟨consistent_init pid gen, fun id e he => absurd he (hnone id e), Nat.zero_le n⟩,
      fun x hx => absurd hx List.not_mem_nil, ⟨?_, ?_⟩, fun id e he => absurd he (hnone id e)⟩
    · exact fun id e he => absurd he (hnone id e)
    · exact fun id e he => absurd he (hnone id e)
  · intro tr c e c' _ ih hstep hknown
    obtain ⟨a, hpace, hcall⟩ := step_eq_some.mp hstep
    have hops : c.opsBy e = (Observing.call a).log c.game := by rw [opsBy, hpace]
    rw [ops_snoc, hops] at hknown ⊢
    rw [← Observing.run_call] at hcall
    obtain ⟨hc, hcrowd, hspaced⟩ := ih fun x hx => hknown x (List.mem_append_left _ hx)
    obtain ⟨hc', hcrowd', hspaced'⟩ := Observing.within_call a c.game hc hspaced () c'.game hcall
      fun x hx => hknown x (List.mem_append_right _ hx)
    exact ⟨hc', fun x hx => (List.mem_append.mp hx).elim (hcrowd x) (hcrowd' x), hspaced'⟩

/-- **The world stays bounded.** In every run in which players enter where the server lets them: each
player is on the screen after each operation, and is removed only when it is dead; and at the end of
each `update_ctrl_once` there are at most 120 enemies, and at most 202 bullets for each of the players
of whom there were never more than `n` at once. -/
theorem bounded_run {pid : Pid} {gen : γ} {msg : Loginsuc} {tr : List (Fsm γ × Event)} {c : Fsm γ}
    (h : Run step (Fsm.init pid gen msg) tr c)
    (hplaced : ∀ data ∈ applied tr, ∀ ctrl ∈ data.ctrlData, Placed OnStart ctrl) :
    (∀ x ∈ ops tr, ∀ id e, x.2.objects.lookup id = some e → e.type = .player →
      (0 ≤ e.x ∧ e.x ≤ screenWidth) ∧ 0 ≤ e.z ∧ e.z ≤ screenHeight) ∧
    (∀ x ∈ ops tr, ∀ id e, x.1 = .removed id e → e.type = .player →
      e.isOutScreen = false ∧ e.isDead = true) ∧
    (∀ x ∈ ops tr, x.1 = .ctrlOnce → x.2.enemyObjects.keys.length ≤ 120) ∧
    ∀ n, (∀ x ∈ ops tr, x.2.playerObjects.keys.length ≤ n) →
      ∀ x ∈ ops tr, x.1 = .ctrlOnce → x.2.bulletObjects.keys.length ≤ 202 * n := by
  obtain ⟨hpath, -⟩ := path_run h hplaced
  have hinit : (GameObj.init pid gen).Consistent ∧ (GameObj.init pid gen).Inside := by
    refine ⟨consistent_init pid gen, fun id e he => ?_⟩
    cases he
  have hstates := (hpath.forall_states (I := fun g => g.Consistent ∧ g.Inside) hinit
    fun t o t' ht hstep => ⟨hstep.consistent ht.1, ht.2.step hstep⟩).1
  have hcrowd : ∀ n, (∀ x ∈ ops tr, x.2.playerObjects.keys.length ≤ n) → ∀ x ∈ ops tr, Crowd n x.1 x.2 :=
    fun n hn => (crowd_run h fun x hx => ⟨(hstates x hx).1, (hstates x hx).2, hn x hx⟩).2.1
  refine ⟨fun x hx id e he htype => ?_, fun x hx id e ho htype => ?_, fun x hx ho => ?_,
    fun n hn x hx ho => (hcrowd n hn x hx ho).2⟩
  · exact Entity.isOutScreen_eq_false.mp ((hstates x hx).2 id e he htype)
  · obtain ⟨pre, post, hsplit⟩ := List.append_of_mem hx
    rw [hsplit] at hpath
    obtain ⟨t, hpre, hpost⟩ := hpath.of_append
    have ht : t.Inside := by
      refine (hpre.forall_states (I := Inside) hinit.2 fun t o t' ht hstep => ht.step hstep).2
    obtain ⟨o, g⟩ := x
    obtain rfl := ho
    cases hpost with
    | cons hstep _ =>
        cases hstep with
        | removed he hgone =>
            have hscreen := ht id e he htype
            rw [hscreen, Bool.or_false] at hgone
            exact ⟨hscreen, hgone⟩
  · -- there are only finitely many states, so the number of players has a bound
    have hbound : ∀ y ∈ ops tr, y.2.playerObjects.keys.length
        ≤ ((ops tr).map fun y => y.2.playerObjects.keys.length).sum := fun y hy =>
      List.le_sum_of_mem (List.mem_map_of_mem hy)
    exact (hcrowd _ hbound x hx ho).1

end Run

section Recorded

attribute [local instance] DictOrder.byInsertion

/-- Player 1 enters where the server could have let it enter. -/
def startFrame : FrameInfo :=
  ⟨1, [{ pid := some 1, action := some actionEnter, enterInfo := some {
          name := some [97], color := some ⟨some 1, some 2, some 3⟩,
          pos := some ⟨some 100, some 580⟩ } }], 10⟩

/-- The events of a client that applies it. -/
def startEvents : List Event :=
  [.frameCacheData [], .fsmOpen, .frameData startFrame, .updateLogic, .drain]

/-- That client has a player and is within the bounds. -/
theorem bounded_run_start : ∃ c, Run step livePlayer (traceFrom step livePlayer startEvents) c ∧
    (∃ x ∈ ops (traceFrom step livePlayer startEvents), x.2.playerObjects.keys.length = 1) ∧
    ∀ x ∈ ops (traceFrom step livePlayer startEvents),
      x.1 = .ctrlOnce → x.2.enemyObjects.keys.length ≤ 120 := by
  have hrun : (runFrom step livePlayer startEvents).isSome = true := by decide +kernel
  obtain ⟨c, hc⟩ := Option.isSome_iff_exists.mp hrun
  have hplayer : (ops (traceFrom step livePlayer startEvents)).any
      (fun x => x.2.playerObjects.keys.length = 1) = true := by
    decide +kernel
  obtain ⟨x, hx, hone⟩ := List.any_eq_true.mp hplayer
  have happlied : applied (traceFrom step livePlayer startEvents) = [startFrame] := by decide +kernel
  have hplaced : ∀ data ∈ applied (traceFrom step livePlayer startEvents), ∀ ctrl ∈ data.ctrlData,
      Placed OnStart ctrl := by
    rw [happlied]
    intro data hdata ctrl hctrl _ args x z hargs hpos
    obtain rfl := List.mem_singleton.mp hdata
    obtain rfl := List.mem_singleton.mp hctrl
    obtain rfl := Option.some.inj hargs
    obtain ⟨rfl, rfl⟩ : (100 : ℤ) = x ∧ (580 : ℤ) = z := by simpa using hpos
    exact ⟨by decide, by decide⟩
  exact ⟨c, run_of_runFrom hc, ⟨x, hx, of_decide_eq_true hone⟩,
    (bounded_run (run_of_runFrom hc) hplaced).2.2.1⟩

end Recorded

end Fsm

end FrameSync.Client
