import FrameSync.Client.EntityIndex
import Mathlib.Algebra.BigOperators.Ring.List

/-! # Where the score comes from

Every enemy that is killed is worth 10 points, and it was killed by a bullet or by a player who lost
blood. A hit is paid out later, when the enemy is updated, so the quantity that is conserved by every
operation counts what the objects still have to pay (`stake`, `balance_step`). At the end of
`update_ctrl_once` no object is dead, nothing is left to pay, and the score is 10 times the bullets that
hit and the blood that players lost (`score_run`). -/

namespace FrameSync.Client

variable {γ : Type}

open GameObj

/-! ## What was done so far -/

/-- A bullet is removed because it hit. -/
def EntityOp.hitsBullet : EntityOp → ℤ
  | .removed _ obj => if obj.type = .bullet ∧ obj.isDead = true then 1 else 0
  | .drew | .seeded | .began | .created .. | .destroyed .. | .wrote .. | .hit .. | .ctrlOnce => 0

/-- The blood of a player; nothing for other objects. -/
def Entity.playerBlood (e : Entity) : ℤ := if e.type = .player then e.blood else 0

/-- The blood that an operation brings into the game with a player, or takes out of it. -/
def EntityOp.bloodIn : EntityOp → ℤ
  | .created _ obj => obj.playerBlood
  | .destroyed _ obj | .removed _ obj => -obj.playerBlood
  | .drew | .seeded | .began | .wrote .. | .hit .. | .ctrlOnce => 0

/-- The enemy that an operation scores for. -/
def EntityOp.scoredId : EntityOp → Option ℕ
  | .removed id obj => if obj.type = .enemy ∧ obj.isDead = true then some id else none
  | .drew | .seeded | .began | .created .. | .destroyed .. | .wrote .. | .hit .. | .ctrlOnce => none

/-- The number of bullets that were removed because they hit. -/
def bulletsHit (l : List (EntityOp × GameObj γ)) : ℤ := (l.map fun x => x.1.hitsBullet).sum

/-- The blood that all players had when they entered, without what those who are gone had left. -/
def bloodIn (l : List (EntityOp × GameObj γ)) : ℤ := (l.map fun x => x.1.bloodIn).sum

/-- The blood that all players lost, those who are gone and those who are there. -/
def bloodLost (l : List (EntityOp × GameObj γ)) (g : GameObj γ) : ℤ :=
  bloodIn l - g.objects.total Entity.playerBlood

/-- The enemies that were scored for, in order. -/
def scoredIds (l : List (EntityOp × GameObj γ)) : List ℕ := l.filterMap fun x => x.1.scoredId

theorem bulletsHit_snoc (l : List (EntityOp × GameObj γ)) (o : EntityOp) (g : GameObj γ) :
    bulletsHit (l ++ [(o, g)]) = bulletsHit l + o.hitsBullet := by
  simp [bulletsHit]

theorem bloodIn_snoc (l : List (EntityOp × GameObj γ)) (o : EntityOp) (g : GameObj γ) :
    bloodIn (l ++ [(o, g)]) = bloodIn l + o.bloodIn := by
  simp [bloodIn]

theorem scoredIds_snoc (l : List (EntityOp × GameObj γ)) (o : EntityOp) (g : GameObj γ) :
    scoredIds (l ++ [(o, g)]) = scoredIds l ++ o.scoredId.toList := by
  rw [scoredIds, scoredIds, List.filterMap_append]
  cases h : o.scoredId with
  | none => simp [h]
  | some id => simp [h]

/-! ## Objects with one blood -/

/-- Bullets have at most one blood, and so have enemies, which are worth 10 points. -/
structure Entity.Fit (e : Entity) : Prop where
  /-- `m_Blood` is not negative. -/
  nonneg : e.type ≠ .player → 0 ≤ e.blood
  /-- It is at most 1. -/
  le_one : e.type ≠ .player → e.blood ≤ 1
  /-- `m_RewardScore` -/
  reward : e.type = .enemy → e.body = .enemy 10

/-- All objects are fit. -/
def GameObj.Fit (g : GameObj γ) : Prop := ∀ id e, g.objects.lookup id = some e → e.Fit

/-- A fit object that is written back with its blood stays fit. -/
theorem Entity.Fit.of_same {e e' : Entity} (h : e.Fit) (htype : e'.type = e.type)
    (hblood : e'.blood = e.blood) (hreward : e'.type = .enemy → e'.body = e.body) : e'.Fit := by
  refine ⟨fun hne => ?_, fun hne => ?_, fun henemy => ?_⟩
  · rw [hblood]
    exact h.nonneg (htype ▸ hne)
  · rw [hblood]
    exact h.le_one (htype ▸ hne)
  · rw [hreward henemy]
    exact h.reward (htype ▸ henemy)

/-- An object that is alive stays fit when it is hit. -/
theorem Entity.Fit.onHit {e : Entity} (h : e.Fit) (halive : e.isDead = false) : e.onHit.Fit := by
  have hpos : 0 < e.blood := by
    rw [Entity.isDead, decide_eq_false_iff_not] at halive
    exact not_le.mp halive
  refine ⟨fun hne => ?_, fun hne => ?_, h.reward⟩
  · have := h.nonneg hne
    show 0 ≤ e.blood - 1
    omega
  · have := h.le_one hne
    show e.blood - 1 ≤ 1
    omega

theorem GameObj.Fit.create {g : GameObj γ} (h : g.Fit) {e : Entity} (he : e.Fit) : (g.create e).Fit := by
  intro id e' he'
  rw [lookup_create] at he'
  split at he'
  · exact Option.some.inj he' ▸ he
  · exact h id e' he'

theorem GameObj.Fit.put {g : GameObj γ} (h : g.Fit) {id : ℕ} {e e' : Entity}
    (he : g.objects.lookup id = some e) (he' : e'.Fit) : (g.put id e').Fit := by
  intro id' e'' he''
  rw [lookup_put he] at he''
  split at he''
  · exact Option.some.inj he'' ▸ he'
  · exact h id' e'' he''

theorem GameObj.Fit.unstore {g : GameObj γ} (h : g.Fit) (id : ℕ) (e : Entity) : (g.unstore id e).Fit := by
  intro id' e' he'
  rw [lookup_unstore] at he'
  split at he'
  · cases he'
  · exact h id' e' he'

/-- A new enemy is fit. -/
theorem NewEnemy.fit {e : Entity} (h : NewEnemy e) : e.Fit := by
  refine ⟨fun _ => ?_, fun _ => ?_, fun _ => h.body⟩
  · rw [h.blood]
    decide
  · rw [h.blood]

/-- A player is fit, whatever its blood. -/
theorem Entity.fit_of_player {e : Entity} (h : e.type = .player) : e.Fit := by
  refine ⟨fun hne => absurd h hne, fun hne => absurd h hne, fun henemy => ?_⟩
  rw [h] at henemy
  cases henemy

/-- **Every operation keeps the objects fit.** -/
theorem EntityStep.fit {N : ℤ → ℤ → Prop} {g g' : GameObj γ} {o : EntityOp}
    (h : EntityStep N g o g') (hg : g.Fit) : g'.Fit := by
  cases h with
  | drew | seeded | began => exact hg
  | spawned h => exact hg.create h.fit
  | fired => exact hg.create ⟨fun _ => zero_le_one, fun _ => le_rfl, fun henemy => EntityType.noConfusion henemy⟩
  | entered h => exact hg.create (Entity.fit_of_player h.type)
  | destroyed => exact hg.unstore _ _
  | removed =>
      refine Fit.unstore (fun id e he => ?_) _ _
      rw [objects_rewarded] at he
      exact hg id e he
  | moved h =>
      exact hg.put h ((hg _ _ h).of_same (Entity.type_advance _) (Entity.blood_advance _)
        fun _ => Entity.body_advance _)
  | turned h hplayer _ htype => exact hg.put h (Entity.fit_of_player (htype.trans hplayer))
  | hit h₁ h₂ halive₁ halive₂ hfoes =>
      exact (hg.put h₁ ((hg _ _ h₁).onHit halive₁)).put (hfoes.lookup_put h₁ h₂ _)
        ((hg _ _ h₂).onHit halive₂)
  | ctrlOnce => exact hg

/-! ## The balance -/

/-- What an object has to pay: 10 points for an enemy that is dead; a bullet or a player pays them for
the enemy that it hit, and a player has that much to pay with. -/
def Entity.stake (e : Entity) : ℤ :=
  match e.type with
  | .enemy => 10 * (1 - e.blood)
  | .bullet => -(10 * (1 - e.blood))
  | .player => 10 * e.blood

/-- The score, and what the objects have to pay. -/
def GameObj.balance (g : GameObj γ) : ℤ := g.curScore + g.objects.total Entity.stake

theorem Entity.stake_of_same {e e' : Entity} (htype : e'.type = e.type) (hblood : e'.blood = e.blood) :
    e'.stake = e.stake := by
  rw [stake, stake, htype, hblood]

theorem balance_create {g : GameObj γ} (h : g.Consistent) (e : Entity) :
    (g.create e).balance = g.balance + e.stake := by
  have htotal : (g.objects.insert (g.entityId + 1) e).total Entity.stake
      = e.stake + g.objects.total Entity.stake := AList.total_insert _ h.indexed.lookup_next e
  show g.curScore + (g.objects.insert (g.entityId + 1) e).total Entity.stake = _
  rw [htotal, GameObj.balance]
  omega

theorem balance_unstore {g : GameObj γ} {id : ℕ} {e : Entity} (h : g.objects.lookup id = some e) :
    (g.unstore id e).balance = g.balance - e.stake := by
  show g.curScore + (g.objects.erase id).total Entity.stake = _
  rw [AList.total_erase _ h, GameObj.balance]
  omega

theorem balance_put {g : GameObj γ} {id : ℕ} {e e' : Entity} (h : g.objects.lookup id = some e) :
    (g.put id e').balance = g.balance - e.stake + e'.stake := by
  show g.curScore + (g.objects.replace id e').total Entity.stake = _
  rw [AList.total_replace _ h, GameObj.balance]
  omega

/-- What is dead has no blood left. -/
theorem Entity.isDead_eq_true {e : Entity} : e.isDead = true ↔ e.blood ≤ 0 := decide_eq_true_iff

theorem Entity.isDead_eq_false {e : Entity} : e.isDead = false ↔ 0 < e.blood := by
  rw [isDead, decide_eq_false_iff_not, not_le]

/-- The points for a fit object. -/
theorem rewarded_eq (g : GameObj γ) {e : Entity} (hfit : e.Fit) :
    g.rewarded e = if e.type = .enemy ∧ e.isDead = true then g.scored 10 else g := by
  obtain ⟨x, z, width, height, color, speed, dir, blood, body⟩ := e
  cases body with
  | enemy rewardScore =>
      obtain rfl := Body.enemy.inj (hfit.reward rfl)
      rw [rewarded]
      split_ifs
      · rfl
      · rename_i hdead hnot
        exact absurd ⟨rfl, hdead⟩ hnot
      · rename_i hdead hboth
        exact absurd hboth.2 hdead
      · rfl
  | bullet | player => rfl

theorem balance_rewarded (g : GameObj γ) {e : Entity} (hfit : e.Fit) :
    (g.rewarded e).balance = g.balance + if e.type = .enemy ∧ e.isDead = true then 10 else 0 := by
  rw [rewarded_eq g hfit]
  split_ifs
  · show g.curScore + 10 + g.objects.total Entity.stake = g.curScore + g.objects.total Entity.stake + 10
    omega
  · rw [add_zero]

/-- What a fit object has to pay is paid when it is removed. -/
theorem Entity.Fit.paid {e : Entity} (h : e.Fit) (id : ℕ) :
    (if e.type = .enemy ∧ e.isDead = true then 10 else 0) - e.stake
      = 10 * ((EntityOp.removed id e).hitsBullet + (EntityOp.removed id e).bloodIn) := by
  have hnonneg := h.nonneg
  have hle := h.le_one
  simp only [EntityOp.hitsBullet, EntityOp.bloodIn, playerBlood, stake, isDead_eq_true]
  cases htype : e.type with
  | player => simp
  | bullet =>
      rw [htype] at hnonneg hle
      have := hnonneg (by decide)
      have := hle (by decide)
      simp only [reduceCtorEq, false_and, if_false, true_and, neg_zero, add_zero]
      split_ifs
      all_goals omega
  | enemy =>
      rw [htype] at hnonneg hle
      have := hnonneg (by decide)
      have := hle (by decide)
      simp only [reduceCtorEq, false_and, if_false, true_and, neg_zero, add_zero]
      split_ifs
      all_goals omega

/-- In a collision one object has as much more to pay as the other has less. -/
theorem Foes.stake_onHit {e₁ e₂ : Entity} (h : Foes e₁ e₂) :
    e₁.onHit.stake + e₂.onHit.stake = e₁.stake + e₂.stake := by
  have hblood : ∀ e : Entity, e.onHit.blood = e.blood - 1 := fun _ => rfl
  rcases h with ⟨h₁, h₂⟩ | ⟨h₁, h₂⟩
  all_goals
    simp only [Entity.stake, Entity.type_onHit, h₁, h₂, hblood]
    omega

/-- **What an operation does to the balance**: it adds 10 points for a bullet that is removed because it
hit, and 10 for each blood that a player brings in. -/
theorem balance_step {N : ℤ → ℤ → Prop} {g g' : GameObj γ} {o : EntityOp} (h : EntityStep N g o g')
    (hcons : g.Consistent) (hfit : g.Fit) : g'.balance = g.balance + 10 * (o.hitsBullet + o.bloodIn) := by
  cases h with
  | drew | seeded | began | ctrlOnce => exact (add_zero _).symm
  | spawned h =>
      rw [balance_create hcons]
      simp [EntityOp.hitsBullet, EntityOp.bloodIn, Entity.stake, Entity.playerBlood, Entity.type, h.body,
        h.blood]
  | fired =>
      rw [balance_create hcons]
      rfl
  | entered h =>
      rw [balance_create hcons]
      simp [EntityOp.hitsBullet, EntityOp.bloodIn, Entity.stake, Entity.playerBlood, h.type]
  | @destroyed id e h halive =>
      -- an object that is alive has nothing to pay: its removal would pay as much
      rw [balance_unstore h]
      have hpaid := (hfit id e h).paid id
      simp only [halive, Bool.false_eq_true, and_false, if_false, EntityOp.hitsBullet, EntityOp.bloodIn]
        at hpaid ⊢
      omega
  | @removed id e h =>
      have h' : (g.rewarded e).objects.lookup id = some e := by rwa [objects_rewarded]
      rw [balance_unstore h', balance_rewarded g (hfit id e h), ← (hfit id e h).paid id]
      omega
  | moved h =>
      rw [balance_put h, Entity.stake_of_same (Entity.type_advance _) (Entity.blood_advance _)]
      simp [EntityOp.hitsBullet, EntityOp.bloodIn]
  | turned h _ _ htype _ hblood =>
      rw [balance_put h, Entity.stake_of_same htype hblood]
      simp [EntityOp.hitsBullet, EntityOp.bloodIn]
  | hit h₁ h₂ _ _ hfoes =>
      -- one of them has 10 points more to pay, and the other 10 less
      rw [balance_put (hfoes.lookup_put h₁ h₂ _), balance_put h₁]
      have hpay := hfoes.stake_onHit
      simp only [EntityOp.hitsBullet, EntityOp.bloodIn]
      omega

/-! ## The enemies that were scored for -/

/-- The score is 10 points higher after an enemy was scored for, and the game over once it reaches the
goal. -/
theorem score_step {N : ℤ → ℤ → Prop} {g g' : GameObj γ} {o : EntityOp} (h : EntityStep N g o g')
    (hfit : g.Fit) : (o.scoredId = none ∧ g'.curScore = g.curScore ∧ g'.gameOver = g.gameOver) ∨
      ∃ id, o.scoredId = some id ∧ id ∈ g.objects ∧ g'.objects.lookup id = none ∧
        g'.curScore = g.curScore + 10 ∧
        g'.gameOver = (g.gameOver || decide (goalScore ≤ g.curScore + 10)) := by
  cases h with
  | @removed id e h =>
      have hstate := rewarded_eq g (hfit id e h)
      by_cases hscored : e.type = .enemy ∧ e.isDead = true
      · rw [if_pos hscored] at hstate
        refine Or.inr ⟨id, if_pos hscored, AList.lookup_isSome.mp (by rw [h]; rfl), ?_, ?_, ?_⟩
        · rw [lookup_unstore, if_pos rfl]
        · rw [hstate]
          rfl
        · rw [hstate]
          rfl
      · rw [if_neg hscored] at hstate
        rw [hstate]
        exact Or.inl ⟨if_neg hscored, rfl, rfl⟩
  | drew | seeded | began | spawned | fired | entered | destroyed | moved | turned | hit | ctrlOnce =>
      exact Or.inl ⟨rfl, rfl, rfl⟩

/-- An object that is gone never comes back. -/
theorem EntityStep.gone {N : ℤ → ℤ → Prop} {g g' : GameObj γ} {o : EntityOp} (h : EntityStep N g o g')
    {id : ℕ} (hnone : g.objects.lookup id = none) (hid : id ≤ g.entityId) :
    g'.objects.lookup id = none ∧ id ≤ g'.entityId := by
  -- A new object takes the next id, and `id` is not above the last one.
  have hne : id ≠ g.entityId + 1 := by omega
  have put : ∀ {g : GameObj γ} {id' : ℕ} {e e' : Entity}, g.objects.lookup id' = some e →
      g.objects.lookup id = none → (g.put id' e').objects.lookup id = none := by
    intro g id' e e' he hnone
    rw [lookup_put he, if_neg]
    · exact hnone
    · rintro rfl
      rw [hnone] at he
      cases he
  constructor
  · cases h with
    | drew | seeded | began | ctrlOnce => exact hnone
    | spawned | fired | entered =>
        rw [lookup_create, if_neg hne]
        exact hnone
    | destroyed | removed =>
        rw [lookup_unstore]
        split
        · rfl
        · simpa using hnone
    | moved h => exact put h hnone
    | turned h => exact put h hnone
    | hit h₁ h₂ _ _ hfoes => exact put (hfoes.lookup_put h₁ h₂ _) (put h₁ hnone)
  · rcases h.entityId with ⟨-, heq⟩ | ⟨-, heq⟩
    · exact hid.trans heq.ge
    · rw [heq]
      exact hid.trans (Nat.le_succ _)

/-- What holds of the score after the operations of a path. -/
structure Scored (l : List (EntityOp × GameObj γ)) (g : GameObj γ) : Prop where
  /-- The game is consistent. -/
  consistent : g.Consistent
  /-- Its objects are fit. -/
  fit : g.Fit
  /-- The balance. -/
  balance : g.balance = 10 * (bulletsHit l + bloodIn l)
  /-- Each score was for another enemy. -/
  nodup : (scoredIds l).Nodup
  /-- And that enemy is gone. -/
  gone : ∀ id ∈ scoredIds l, g.objects.lookup id = none ∧ id ≤ g.entityId
  /-- It was 10 points. -/
  counted : g.curScore = 10 * (scoredIds l).length
  /-- `m_GameOver` -/
  gameOver : g.gameOver = true ↔ goalScore ≤ g.curScore
  /-- The score never fell. -/
  grows : ∀ x ∈ l, x.2.curScore ≤ g.curScore

/-- One more operation. -/
theorem Scored.step {N : ℤ → ℤ → Prop} {l : List (EntityOp × GameObj γ)} {g g' : GameObj γ}
    {o : EntityOp} (hs : Scored l g) (h : EntityStep N g o g') : Scored (l ++ [(o, g')]) g' := by
  have hbalance := balance_step h hs.consistent hs.fit
  have hgone : ∀ id ∈ scoredIds l, g'.objects.lookup id = none ∧ id ≤ g'.entityId :=
    fun id hid => h.gone (hs.gone id hid).1 (hs.gone id hid).2
  -- The score never falls in an operation, so only the new entry has to be compared.
  have grows : g.curScore ≤ g'.curScore → ∀ x ∈ l ++ [(o, g')], x.2.curScore ≤ g'.curScore := by
    intro hle x hx
    rcases List.mem_append.mp hx with hx | hx
    · exact (hs.grows x hx).trans hle
    · obtain rfl := List.mem_singleton.mp hx
      exact le_rfl
  -- `balance` counts every bullet that hit and every blood lost up to here, 10 points each.
  have hbal : g'.balance = 10 * (bulletsHit (l ++ [(o, g')]) + bloodIn (l ++ [(o, g')])) := by
    rw [hbalance, hs.balance, bulletsHit_snoc, bloodIn_snoc]
    omega
  -- Either the operation scores for nothing, or it takes out one enemy.
  rcases score_step h hs.fit with ⟨hnone, hscore, hover⟩ | ⟨id, hsome, hmem, hout, hscore, hover⟩
  · have hids : scoredIds (l ++ [(o, g')]) = scoredIds l := by
      rw [scoredIds_snoc, hnone]
      exact List.append_nil _
    refine ⟨h.consistent hs.consistent, h.fit hs.fit, hbal, hids ▸ hs.nodup, hids ▸ hgone, ?_, ?_,
      grows hscore.ge⟩
    · rw [hids, hscore, hs.counted]
    · rw [hover, hscore]
      exact hs.gameOver
  · have hids : scoredIds (l ++ [(o, g')]) = scoredIds l ++ [id] := by
      rw [scoredIds_snoc, hsome]
      rfl
    -- An enemy is scored for as it goes out, and no id is used twice: it is a new one.
    have hnew : id ∉ scoredIds l := by
      intro hid
      rw [← AList.lookup_isSome, (hs.gone id hid).1] at hmem
      cases hmem
    refine ⟨h.consistent hs.consistent, h.fit hs.fit, hbal, ?_, ?_, ?_, ?_, grows (by omega)⟩
    · rw [hids]
      exact List.nodup_append.mpr ⟨hs.nodup, List.nodup_singleton id, fun a ha b hb => by
        rw [List.mem_singleton.mp hb]
        rintro rfl
        exact hnew ha⟩
    · rw [hids]
      intro id' hid'
      rcases List.mem_append.mp hid' with hid' | hid'
      · exact hgone id' hid'
      · obtain rfl := List.mem_singleton.mp hid'
        refine ⟨hout, (hs.consistent.indexed.fresh id' hmem).trans ?_⟩
        rcases h.entityId with ⟨-, heq⟩ | ⟨-, heq⟩
        · exact heq.ge
        · rw [heq]
          exact Nat.le_succ _
    · rw [hids, hscore, hs.counted, List.length_append]
      push_cast
      simp only [List.length_singleton, Nat.cast_one]
      omega
    · rw [hover, hscore, Bool.or_eq_true, decide_eq_true_iff, hs.gameOver]
      constructor
      · rintro (hle | hle)
        · omega
        · exact hle
      · exact Or.inr

/-! ## The score at the end of `update_ctrl_once` -/

/-- An object that is alive and no player has nothing to pay. -/
theorem Entity.Fit.stake_of_alive {e : Entity} (h : e.Fit) (halive : e.isDead = false) :
    e.stake = 10 * e.playerBlood := by
  rw [isDead_eq_false] at halive
  have hle := h.le_one
  rw [stake, playerBlood]
  cases htype : e.type with
  | player => rfl
  | bullet =>
      have := hle (by rw [htype]; decide)
      simp only [reduceCtorEq, if_false]
      omega
  | enemy =>
      have := hle (by rw [htype]; decide)
      simp only [reduceCtorEq, if_false]
      omega

/-- **The score**, when no object is dead. -/
theorem Scored.curScore {l : List (EntityOp × GameObj γ)} {g : GameObj γ} (h : Scored l g)
    (halive : g.DeadIn []) : g.curScore = 10 * (bulletsHit l + bloodLost l g) := by
  have hstake : g.objects.total Entity.stake = g.objects.total fun e => 10 * e.playerBlood := by
    refine AList.total_congr fun id e he => (h.fit id e he).stake_of_alive ?_
    rw [← Bool.not_eq_true]
    exact fun hdead => absurd (halive id e he hdead) List.not_mem_nil
  have hblood : g.objects.total (fun e => 10 * e.playerBlood) = 10 * g.objects.total Entity.playerBlood :=
    List.sum_map_mul_left ..
  have hbalance := h.balance
  rw [GameObj.balance, hstake, hblood] at hbalance
  rw [bloodLost]
  omega

namespace Fsm

section Run

variable [PyRandom γ] [DictOrder ℕ]

/-- **Conservation of score.** At the end of every `update_ctrl_once` of a run: the score is 10 times
the bullets that were removed because they hit and the blood that all players lost; every object has
blood; the score is 10 points for each of the enemies that were scored for, all of them different; and
the game is over exactly when the score, which never falls, has reached the goal. -/
theorem score_run {pid : Pid} {gen : γ} {msg : Loginsuc} {tr : List (Fsm γ × Event)} {c : Fsm γ}
    (h : Run step (Fsm.init pid gen msg) tr c) {pre post : List (EntityOp × GameObj γ)} {g : GameObj γ}
    (hsplit : ops tr = pre ++ (.ctrlOnce, g) :: post) :
    g.curScore = 10 * (bulletsHit pre + bloodLost pre g) ∧
      (∀ id ∈ g.allEntityObjects.keys, ∃ e, g.objects.lookup id = some e ∧ 0 < e.blood) ∧
      (∀ t, ∀ id ∈ (g.dictOf t).keys, ∃ e, g.objects.lookup id = some e ∧ 0 < e.blood) ∧
      g.curScore = 10 * (scoredIds pre).length ∧ (scoredIds pre).Nodup ∧
      (g.gameOver = true ↔ goalScore ≤ g.curScore) ∧ ∀ x ∈ pre, x.2.curScore ≤ g.curScore := by
  obtain ⟨hpath, -⟩ := path_run (N := fun _ _ => True) h fun data _ ctrl _ => placed_anywhere ctrl
  rw [hsplit] at hpath
  obtain ⟨t, hpre, hpost⟩ := hpath.of_append
  have hscored : Scored pre t := by
    -- `Scored` holds of the empty list and each operation keeps it.
    refine hpre.invariant (P := Scored) ⟨consistent_init pid gen, ?_, ?_, ?_, ?_, ?_, ?_, ?_⟩
      fun l t o t' hs hstep => hs.step hstep
    · intro id e he
      cases he
    · rfl
    · exact List.nodup_nil
    · exact fun id hid => absurd hid List.not_mem_nil
    · rfl
    · show false = true ↔ goalScore ≤ 0
      decide
    · exact fun x hx => absurd hx List.not_mem_nil
  -- The operation after `pre` is the `update_ctrl_once` itself: no object is dead there.
  cases hpost with
  | cons hstep _ =>
      cases hstep with
      | ctrlOnce halive =>
          have hblood : ∀ id, id ∈ g.objects → ∃ e, g.objects.lookup id = some e ∧ 0 < e.blood := by
            intro id hid
            obtain ⟨e, he⟩ := Option.isSome_iff_exists.mp (AList.lookup_isSome.mpr hid)
            refine ⟨e, he, Entity.isDead_eq_false.mp ?_⟩
            rw [← Bool.not_eq_true]
            exact fun hdead => absurd (halive id e he hdead) List.not_mem_nil
          have hindexed := hscored.consistent.indexed
          exact ⟨hscored.curScore halive, fun id hid => hblood id ((hindexed.all id).mp hid),
            fun t id hid => hblood id (hindexed.alive_dictOf t id hid), hscored.counted, hscored.nodup,
            hscored.gameOver, hscored.grows⟩

end Run

section Recorded

attribute [local instance] DictOrder.byInsertion

/-- The score of a client that was there from the start, after one of its `update_ctrl_once`. -/
theorem score_run_live : ∃ tr c pre g post, Run step livePlayer tr c ∧
    ops tr = pre ++ (.ctrlOnce, g) :: post ∧ g.curScore = 10 * (bulletsHit pre + bloodLost pre g) := by
  have hrun : (runFrom step livePlayer liveEvents).isSome = true := by decide +kernel
  obtain ⟨c, hc⟩ := Option.isSome_iff_exists.mp hrun
  have honce : (ops (traceFrom step livePlayer liveEvents)).any (fun x => x.1 = .ctrlOnce) = true := by
    decide +kernel
  obtain ⟨⟨o, g⟩, hx, ho⟩ := List.any_eq_true.mp honce
  obtain rfl := of_decide_eq_true ho
  obtain ⟨pre, post, hsplit⟩ := List.append_of_mem hx
  exact ⟨_, c, pre, g, post, run_of_runFrom hc, hsplit, (score_run (run_of_runFrom hc) hsplit).1⟩

end Recorded

end Fsm

end FrameSync.Client
