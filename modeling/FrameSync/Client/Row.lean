import FrameSync.Client.Turn
import Mathlib.Algebra.Order.BigOperators.Group.Finset

/-! # A row of players

Players that stand in a row where the enemies appear: an enemy that appears crosses one of them, and is
dead at the end of the turn. As long as they live, the score counts the enemies, and when these appear
is a matter of the generator alone (`appearAll`). -/

namespace FrameSync.Client

variable {γ : Type}

/-- A player on the screen that neither moves nor fires. -/
def Entity.stands (e : Entity) : Bool :=
  match e.body with
  | .player _ _ false _ => e.dir = none && !e.isOutScreen
  | _ => false

theorem Entity.stands_iff {e : Entity} : e.stands = true ↔ ∃ pid name cnt,
    e.body = .player pid name false cnt ∧ e.dir = none ∧ e.isOutScreen = false := by
  obtain ⟨x, z, width, height, color, speed, dir, blood, body⟩ := e
  cases body with
  | enemy | bullet => simp [stands]
  | player pid name inAttack cnt => cases inAttack <;> simp [stands]

theorem Entity.type_of_stands {e : Entity} (h : e.stands = true) : e.type = .player := by
  obtain ⟨pid, name, cnt, hbody, -⟩ := stands_iff.mp h
  rw [type, hbody]

/-- An enemy where `CEnemyObj.__init__` puts it. -/
structure Entity.Appears (e : Entity) : Prop where
  /-- `m_Pos[0]` -/
  x : 1 ≤ e.x ∧ e.x ≤ 799
  /-- `m_Pos[1]` -/
  z : 1 ≤ e.z ∧ e.z ≤ 50
  /-- `m_Width` and `m_Height` -/
  size : 30 ≤ e.width ∧ 30 ≤ e.height
  /-- `m_RewardScore` -/
  body : e.body = .enemy 10
  /-- `m_Blood` -/
  blood : e.blood = 1

namespace GameObj

open Program Entity

/-! ## When an enemy appears -/

section Appear

variable [PyRandom γ]

/-- The generator after the draws of `CEnemyObj.__init__`. -/
def drawEnemy (gen : γ) : γ :=
  [(30, 50), (30, 50), (1, 5), (1, 799), (1, 50), (20, 60)].foldl
    (fun gen range => (PyRandom.randint range.1 range.2 gen).2) gen

/-- What `update_ctrl_once` draws: whether an enemy appears, and the generator after it. -/
def appear (gen : γ) : Bool × γ :=
  match PyRandom.randint 1 20 gen with
  | (n, gen) => if n ≤ 1 then (true, drawEnemy gen) else (false, gen)

/-- The enemies that appear in `n` turns, counted from `k` on. -/
def appearAll : ℕ → ℕ → γ → ℕ × γ
  | 0, k, gen => (k, gen)
  | n + 1, k, gen =>
      match appear gen with
      | (true, gen) => appearAll n (k + 1) gen
      | (false, gen) => appearAll n k gen

theorem appearAll_succ (n k : ℕ) (gen : γ) :
    appearAll (n + 1) k gen = appearAll n (k + (appear gen).1.toNat) (appear gen).2 := by
  rw [appearAll]
  rcases appear gen with ⟨appears, gen'⟩
  cases appears with
  | true => rfl
  | false => rfl

/-- One turn more. -/
theorem appearAll_snoc (n k : ℕ) (gen : γ) :
    (appearAll (n + 1) k gen).1 =
      (appearAll n k gen).1 + (appear (appearAll n k gen).2).1.toNat := by
  induction n generalizing k gen with
  | zero => rw [appearAll_succ, appearAll, appearAll]
  | succ n ih => rw [appearAll_succ, ih, ← appearAll_succ]

/-- More turns, more enemies. -/
theorem appearAll_mono {m n : ℕ} (h : m ≤ n) (k : ℕ) (gen : γ) :
    (appearAll m k gen).1 ≤ (appearAll n k gen).1 := by
  induction h with
  | refl => exact le_rfl
  | step _ ih =>
      rw [appearAll_snoc]
      omega

/-- In `n` turns `k` enemies appear, and one in the next. -/
def lastAppears (k n : ℕ) (gen : γ) : Bool :=
  match appearAll n 0 gen with
  | (m, gen) => decide (m = k) && (appear gen).1

theorem lastAppears_iff {k n : ℕ} {gen : γ} : lastAppears k n gen = true ↔
    (appearAll n 0 gen).1 = k ∧ (appear (appearAll n 0 gen).2).1 = true := by
  rw [lastAppears]
  generalize appearAll n 0 gen = r
  obtain ⟨m, gen'⟩ := r
  exact Bool.and_eq_true_iff.trans (and_congr_left' decide_eq_true_iff)

/-- Only the generator is another. -/
def withGen (g : GameObj γ) (gen : γ) : GameObj γ := { g with gen := gen }

section Draws

variable {α : Type} {g : GameObj γ} (hseed : ¬ (g.rndSeed = none ∨ g.rndSeed = some 0))

include hseed

/-- What goes on with a draw. -/
theorem ensures_draw_bind {lo hi : ℤ} {gen : γ} {f : ℤ → Method γ α} {Q : α → GameObj γ → Prop} (hle : lo ≤ hi)
    (h : ∀ n, lo ≤ n ∧ n ≤ hi → Ensures (· = g.withGen (PyRandom.randint lo hi gen).2) (f n) Q) :
    Ensures (· = g.withGen gen) (randomInt lo hi >>= f) Q := by
  rintro _ rfl
  have hdraw : randomInt lo hi (g.withGen gen) =
      .ok ((PyRandom.randint lo hi gen).1, g.withGen (PyRandom.randint lo hi gen).2) := by
    rw [randomInt, get_bind_apply, if_neg (show ¬ ((g.withGen gen).rndSeed = none ∨
      (g.withGen gen).rndSeed = some 0) from hseed)]
    rfl
  rw [bind_of_ok hdraw]
  exact h _ (PyRandom.randint_mem lo hi gen hle) _ rfl

/-- What `CEnemyObj.__init__` does. -/
theorem ensures_initEnemy_appears (gen : γ) : Ensures (· = g.withGen gen) (initEnemy : Method γ Entity)
    fun e g' => e.Appears ∧ g' = g.withGen (drawEnemy gen) := by
  refine ensures_draw_bind hseed (by decide) fun width hwidth => ?_
  refine ensures_draw_bind hseed (by decide) fun height hheight => ?_
  rw [randomList, bind_assoc]
  refine ensures_draw_bind hseed (by decide) fun pos hpos => ?_
  have hlt : (pos - 1).toNat < enemyColors.length := by
    have hlen : enemyColors.length = 5 := rfl
    rw [hlen] at hpos ⊢
    omega
  rw [nth, List.getElem?_eq_getElem hlt]
  dsimp only
  rw [pure_bind]
  refine ensures_draw_bind hseed (by decide) fun x hx => ?_
  refine ensures_draw_bind hseed (by decide) fun z hz => ?_
  refine ensures_draw_bind hseed (by decide) fun speed _ => ?_
  exact Ensures.pure fun _ h => ⟨⟨hx, hz, ⟨hwidth.1, hheight.1⟩, rfl, rfl⟩, h⟩

/-- **What `spawnEnemy` does.** -/
theorem ensures_spawnEnemy_appear (gen : γ) :
    Ensures (· = g.withGen gen) (spawnEnemy : Method γ Unit) fun _ g' =>
    (appear gen).1 = false ∧ g' = g.withGen (appear gen).2 ∨
      (appear gen).1 = true ∧ ∃ e : Entity, e.Appears ∧ g' = create e (g.withGen (appear gen).2) := by
  rintro _ rfl
  have hdraw : randomInt 1 20 (g.withGen gen) =
      .ok ((PyRandom.randint 1 20 gen).1, g.withGen (PyRandom.randint 1 20 gen).2) := by
    rw [randomInt, get_bind_apply, if_neg (show ¬ ((g.withGen gen).rndSeed = none ∨
      (g.withGen gen).rndSeed = some 0) from hseed)]
    rfl
  rw [spawnEnemy, bind_of_ok hdraw, appear]
  dsimp only
  split_ifs with hle
  · obtain ⟨e, g', hrun, he, rfl⟩ := ensures_initEnemy_appears hseed (PyRandom.randint 1 20 gen).2 _ rfl
    refine ⟨(), _, ?_, Or.inr ⟨rfl, e, he, rfl⟩⟩
    rw [createEntity, bind_of_ok hrun]
    rfl
  · exact ⟨(), _, rfl, Or.inl ⟨rfl, rfl⟩⟩

end Draws

end Appear

/-! ## The row -/

/-- The players of a game stand in a row, `k` enemies have died, and the one of `dead` is dead but still
there. -/
structure Row (g : GameObj γ) (k : ℕ) (dead : Option ℕ) : Prop where
  /-- The dicts agree. -/
  indexed : g.Indexed
  /-- `RandomInt` finds a seed. -/
  seeded : ¬ (g.rndSeed = none ∨ g.rndSeed = some 0)
  /-- The objects are players, and none has lost more blood than there were enemies. -/
  players : ∀ id e, g.objects.lookup id = some e → dead ≠ some id →
    e.stands = true ∧ 3000 ≤ e.blood + k + dead.toList.length
  /-- But for the dead enemy. -/
  fallen : ∀ id, dead = some id → ∃ e, g.objects.lookup id = some e ∧ e.body = .enemy 10 ∧ e.blood ≤ 0
  /-- Wherever an enemy appears, there is a player. -/
  full : ∀ e : Entity, e.Appears → ∃ id p, g.objects.lookup id = some p ∧ dead ≠ some id ∧
    e.is2RectsCross p = true
  /-- `m_CurScore` -/
  score : g.curScore = 10 * k
  /-- `m_GameOver` -/
  gameOver : g.gameOver = decide (300 ≤ k)

namespace Row

variable {k : ℕ} {dead : Option ℕ} {g g' : GameObj γ}

theorem running (h : g.Row k dead) : g.Running [] :=
  ⟨h.indexed, h.seeded, fun _ hid => absurd hid List.not_mem_nil⟩

/-- Neither the generator nor the frame number matters. -/
theorem congr (h : g.Row k dead) (hobjects : g'.objects = g.objects)
    (hall : g'.allEntityObjects = g.allEntityObjects) (hdict : ∀ t, g'.dictOf t = g.dictOf t)
    (hid : g'.entityId = g.entityId) (hseed : g'.rndSeed = g.rndSeed) (hscore : g'.curScore = g.curScore)
    (hover : g'.gameOver = g.gameOver) : g'.Row k dead := by
  have hrun : g'.Running [] := h.running.congr hobjects hall hdict hid.ge hseed
  refine ⟨hrun.indexed, hrun.seeded, ?_, ?_, ?_, hscore.trans h.score, hover.trans h.gameOver⟩
  · rw [hobjects]
    exact h.players
  · rw [hobjects]
    exact h.fallen
  · rw [hobjects]
    exact h.full

theorem withGen (h : g.Row k dead) (gen : γ) : (g.withGen gen).Row k dead :=
  h.congr rfl rfl (fun t => by cases t <;> rfl) rfl rfl rfl rfl

/-- A row without a dead enemy has players only. -/
theorem player (h : g.Row k none) {id : ℕ} {p : Entity} (hp : g.objects.lookup id = some p) :
    p.stands = true ∧ 3000 ≤ p.blood + k := by
  obtain ⟨hstands, hblood⟩ := h.players id p hp (Option.some_ne_none id).symm
  rw [Option.toList_none, List.length_nil, Nat.cast_zero, add_zero] at hblood
  exact ⟨hstands, hblood⟩

theorem keys_eq_nil (h : g.Row k none) {t : EntityType} (ht : t ≠ .player) : (g.dictOf t).keys = [] := by
  refine List.eq_nil_iff_forall_not_mem.mpr fun id hid => ?_
  obtain ⟨e, he, rfl⟩ := (h.indexed.dict id t).mp hid
  exact ht (type_of_stands (h.player he).1)

theorem indexed_create (h : g.Row k none) (e : Entity) : (g.create e).Indexed := h.indexed.store e

/-! ## The collisions -/

/-- The row after an enemy appeared. -/
theorem keys_create (h : g.Row k none) {e : Entity} (he : e.Appears) {t : EntityType} (ht : t ≠ .player) :
    ((g.create e).dictOf t).keys = if t = .enemy then [g.entityId + 1] else [] := by
  have hstore : (g.create e).dictOf t = if e.type = t then (g.dictOf t).insert (g.entityId + 1) else
      g.dictOf t := (dictOf_store t).trans (by cases t <;> rfl)
  have hempty := h.keys_eq_nil ht
  rw [hstore, Entity.type, he.body]
  dsimp only
  by_cases htype : t = .enemy
  · rw [if_pos htype.symm, if_pos htype]
    show (if g.entityId + 1 ∈ (g.dictOf t).keys then _ else _ : List ℕ) = _
    rw [hempty]
    rfl
  · rw [if_neg fun heq => htype heq.symm, if_neg htype]
    exact hempty

/-- The players are there when the enemy has appeared. -/
theorem lookup_player (h : g.Row k none) {id : ℕ} {p : Entity} (hp : g.objects.lookup id = some p)
    (e : Entity) : (g.create e).objects.lookup id = some p ∧ id ≠ g.entityId + 1 ∧
      id ∈ ((g.create e).dictOf .player).keys := by
  have hne : id ≠ g.entityId + 1 := by
    rintro rfl
    rw [h.indexed.lookup_next] at hp
    cases hp
  have hp' : (g.create e).objects.lookup id = some p := by
    rw [lookup_create, if_neg hne]
    exact hp
  exact ⟨hp', hne, ((h.indexed_create e).dict id .player).mpr ⟨p, hp', type_of_stands (h.player hp).1⟩⟩

section Hit

variable {e : Entity} (he : e.Appears) (hpaired : Paired .enemy .player (g.create e) g')

include he hpaired

/-- The enemy has its blood or is dead. -/
theorem enemy_of_paired : ∃ b, 0 ≤ b ∧ g'.objects.lookup (g.entityId + 1) = some { e with blood := b } := by
  have hnew : (g.create e).objects.lookup (g.entityId + 1) = some e := by
    rw [lookup_create, if_pos rfl]
  obtain ⟨b, -, hdead⟩ := hpaired.worn.stored _ e hnew
  have hnonneg := hpaired.nonneg (g.entityId + 1)
  rw [bloodAt_eq hnew, bloodAt_eq hdead, he.blood] at hnonneg
  exact ⟨b, hnonneg (by decide), hdead⟩

variable (h : g.Row k none)

include h

/-- The players lost what the enemy lost. -/
theorem lost_of_paired : bloodLostBy .player (g.create e) g' ≤ 1 := by
  obtain ⟨b, hb, hdead⟩ := enemy_of_paired he hpaired
  have hnew : (g.create e).objects.lookup (g.entityId + 1) = some e := by
    rw [lookup_create, if_pos rfl]
  rw [← hpaired.lost, bloodLostBy, h.keys_create he (by decide), if_pos rfl, List.toFinset_cons,
    List.toFinset_nil, insert_empty_eq, Finset.sum_singleton, bloodAt_eq hnew, bloodAt_eq hdead, he.blood]
  show 1 - b ≤ 1
  omega

/-- So none of them lost more than one blood. -/
theorem player_of_paired {id : ℕ} {p : Entity} (hp : g.objects.lookup id = some p) :
    ∃ b, p.blood - 1 ≤ b ∧ g'.objects.lookup id = some { p with blood := b } := by
  have hworn : ∀ id ∈ ((g.create e).dictOf .player).keys.toFinset,
      0 ≤ (g.create e).bloodAt id - g'.bloodAt id := by
    intro id hid
    obtain ⟨p, hp, -⟩ := ((h.indexed_create e).dict id .player).mp (List.mem_toFinset.mp hid)
    obtain ⟨b, hb, hp'⟩ := hpaired.worn.stored id p hp
    rw [bloodAt_eq hp, bloodAt_eq hp']
    exact sub_nonneg_of_le hb
  obtain ⟨hp', -, hid⟩ := h.lookup_player hp e
  obtain ⟨b, -, hp''⟩ := hpaired.worn.stored id p hp'
  have hle := (Finset.single_le_sum hworn (List.mem_toFinset.mpr hid)).trans
    (lost_of_paired he hpaired h)
  rw [bloodAt_eq hp', bloodAt_eq hp''] at hle
  exact ⟨b, sub_le_comm.mp hle, hp''⟩

/-- **The enemy dies**, or it would still collide with the player that stands where it appeared. -/
theorem of_paired (hk : k < 2999)
    (hclear : ∀ id₁ ∈ ((g.create e).dictOf .enemy).keys, ∀ id₂ ∈ ((g.create e).dictOf .player).keys,
      ¬ g'.Meet id₁ id₂) : g'.Row k (some (g.entityId + 1)) := by
  obtain ⟨b, -, hdead⟩ := enemy_of_paired he hpaired
  refine ⟨hpaired.worn.indexed (h.indexed_create e), ?_, fun id p' hp' hne => ?_, fun id hid => ?_,
    fun e' he' => ?_, ?_, ?_⟩
  · rw [hpaired.worn.rest]
    exact h.seeded
  · obtain ⟨p, b₁, hp, -, rfl⟩ := hpaired.worn.before hp'
    rw [lookup_create, if_neg fun heq => hne (congrArg some heq.symm)] at hp
    obtain ⟨b', hb', hp''⟩ := player_of_paired he hpaired h hp
    obtain rfl : b₁ = b' := congrArg Entity.blood (Option.some.inj (hp'.symm.trans hp''))
    obtain ⟨hstands, hblood⟩ := h.player hp
    refine ⟨hstands, ?_⟩
    show 3000 ≤ b₁ + k + 1
    omega
  · obtain rfl := Option.some.inj hid
    refine ⟨_, hdead, he.body, ?_⟩
    by_contra halive
    obtain ⟨id, p, hp, -, hcross⟩ := h.full e he
    obtain ⟨b', hb', hp'⟩ := player_of_paired he hpaired h hp
    have hblood := (h.player hp).2
    have halive' : ¬ b' ≤ 0 := by omega
    refine hclear (g.entityId + 1) ?_ id (h.lookup_player hp e).2.2 ⟨_, _, hdead, hp', ?_⟩
    · rw [h.keys_create he (by decide), if_pos rfl]
      exact List.mem_singleton_self _
    · simp only [Entity.meets, Entity.isDead, Bool.and_eq_true, Bool.not_eq_true', decide_eq_false_iff_not]
      exact ⟨⟨halive, halive'⟩, hcross⟩
  · obtain ⟨id, p, hp, -, hcross⟩ := h.full e' he'
    obtain ⟨b', -, hp'⟩ := player_of_paired he hpaired h hp
    exact ⟨id, _, hp', fun heq => (h.lookup_player hp e).2.1 (Option.some.inj heq).symm, hcross⟩
  · rw [hpaired.worn.rest]
    exact h.score
  · rw [hpaired.worn.rest]
    exact h.gameOver

end Hit

/-- A collision loop over no objects. -/
theorem collide_nil [DictOrder ℕ] {outer : GameObj γ → PyDict ℕ} (inner : GameObj γ → PyDict ℕ)
    (h : (outer g).keys = []) : collide outer inner g = .ok ((), g) := by
  have hitems : (outer g).items = [] := by
    refine List.eq_nil_iff_forall_not_mem.mpr fun id hid => ?_
    rw [PyDict.mem_items, h] at hid
    exact List.not_mem_nil hid
  rw [collide, get_bind_apply, hitems]
  rfl

/-- Both loops over a row, before which an enemy has appeared or not. -/
theorem collide_row [DictOrder ℕ] (h : g.Row k none) (hk : k < 2999) (e? : Option Entity)
    (he : ∀ e ∈ e?, e.Appears) :
    ∃ g' dead, (do
        collide (fun g => g.bulletObjects) fun g => g.enemyObjects
        collide (fun g => g.enemyObjects) fun g => g.playerObjects : Method γ Unit)
          (e?.elim g g.create) = .ok ((), g') ∧
      g'.Row k dead ∧ dead.toList.length = e?.toList.length ∧ g'.gen = g.gen := by
  cases e? with
  | none =>
      refine ⟨g, none, ?_, h, rfl, rfl⟩
      rw [Option.elim_none, bind_of_ok (collide_nil _ (h.keys_eq_nil (t := .bullet) (by decide)))]
      exact collide_nil _ (h.keys_eq_nil (t := .enemy) (by decide))
  | some e =>
      have he := he e rfl
      have hbullets : ((g.create e).dictOf .bullet).keys = [] := by
        rw [h.keys_create he (by decide), if_neg (by decide)]
      have hone : (g.create e).OneBlood := by
        intro id e' he' htype
        rw [lookup_create] at he'
        split_ifs at he'
        · rw [← Option.some.inj he', he.blood]
        · exact absurd (Entity.type_of_stands (h.player he').1) htype
      obtain ⟨g', hrun, hpaired, hclear⟩ :=
        collide_paired .enemy .player (h.indexed_create e) (by decide) (by decide)
      refine ⟨g', some (g.entityId + 1), ?_, of_paired he hpaired h hk (hclear hone), rfl, ?_⟩
      · rw [Option.elim_some, bind_of_ok (collide_nil _ hbullets)]
        exact hrun
      · rw [hpaired.worn.rest]
        rfl

/-! ## The last loop -/

/-- The dead enemy is removed, and counts. -/
theorem ensures_remove {id : ℕ} {e : Entity} (h : g.Row k (some id)) (he : g.objects.lookup id = some e) :
    ∃ g', update id g = .ok ((), g') ∧ g'.Row (k + 1) none ∧ g'.gen = g.gen ∧
      ∀ id', id' ≠ id → id' ∈ g.objects → id' ∈ g'.objects := by
  obtain ⟨e', he', hbody, hblood⟩ := h.fallen id rfl
  obtain rfl := Option.some.inj (he.symm.trans he')
  have hdead : e.isDead = true := decide_eq_true hblood
  have hrewarded : g.rewarded e = g.scored 10 := by
    rw [rewarded, hbody]
    exact if_pos hdead
  have hscored : (g.scored 10).Running [] := h.running.congr rfl rfl (fun t => by cases t <;> rfl) le_rfl rfl
  have hlookup : ∀ id', ((g.scored 10).unstore id e).objects.lookup id' =
      if id' = id then none else g.objects.lookup id' := lookup_unstore (g.scored 10) id e
  refine ⟨(g.scored 10).unstore id e, ?_, ⟨hscored.indexed.unstore he, h.seeded, fun id' p hp _ => ?_,
    fun _ hnone => absurd hnone (Option.some_ne_none _).symm, fun e' he' => ?_, ?_, ?_⟩, rfl,
    fun id' hne hid' => ?_⟩
  · -- the removal of an object that is there does not raise
    have halive : g.Running [id] := by
      refine ⟨h.indexed, h.seeded, fun id' hid' => ?_⟩
      rw [List.mem_singleton.mp hid']
      exact AList.lookup_isSome.mp (by rw [he]; rfl)
    obtain ⟨⟨⟩, g', hrun, -⟩ := ensures_update List.not_mem_nil g halive
    rw [hrun]
    rw [update, bind_of_ok (object_apply he), if_pos (by rw [hdead]; rfl)] at hrun
    rw [remove_eq_ok he hrun, hrewarded]
  · rw [hlookup] at hp
    split_ifs at hp with heq
    obtain ⟨hstands, hle⟩ := h.players id' p hp fun hsome => heq (Option.some.inj hsome).symm
    refine ⟨hstands, ?_⟩
    have hle' : 3000 ≤ p.blood + k + 1 := hle
    rw [Option.toList_none, List.length_nil]
    push_cast
    omega
  · -- who stands where the enemy appears is not the dead one
    obtain ⟨id', p, hp, hne, hcross⟩ := h.full e' he'
    refine ⟨id', p, ?_, (Option.some_ne_none id').symm, hcross⟩
    rw [hlookup, if_neg fun heq => hne (congrArg some heq.symm)]
    exact hp
  · show g.curScore + 10 = _
    rw [h.score]
    push_cast
    omega
  · show (g.gameOver || decide (goalScore ≤ g.curScore + 10)) = _
    rw [h.gameOver, h.score, goalScore, ← Bool.decide_or]
    exact decide_eq_decide.mpr (by omega)
  · rw [← AList.lookup_isSome, hlookup, if_neg hne, AList.lookup_isSome]
    exact hid'

/-- A player that stands stays as it is. -/
theorem ensures_stand {id : ℕ} {e : Entity} (h : g.Row k dead) (hk : k + dead.toList.length < 3000)
    (he : g.objects.lookup id = some e) (hdead : dead ≠ some id) :
    ∃ g', update id g = .ok ((), g') ∧ g'.Row k dead ∧ g'.gen = g.gen ∧
      ∀ id', id' ∈ g.objects → id' ∈ g'.objects := by
  obtain ⟨hstands, hblood⟩ := h.players id e he hdead
  have halive : e.isDead = false := decide_eq_false (by omega)
  have hlookup : ∀ id', (g.put id e).objects.lookup id' = g.objects.lookup id' := by
    intro id'
    rw [lookup_put he]
    split_ifs with heq
    · rw [heq, he]
    · rfl
  refine ⟨g.put id e, ?_, ⟨h.indexed.put he rfl, h.seeded, ?_, ?_, ?_, h.score, h.gameOver⟩, rfl,
    fun id' hid' => AList.mem_replace.mpr hid'⟩
  · obtain ⟨pid, name, cnt, hbody, hdir, hscreen⟩ := stands_iff.mp hstands
    have hadvance : e.advance = e := by
      rw [Entity.advance, hdir]
    rw [update, bind_of_ok (object_apply he), if_neg (by rw [halive, hscreen]; decide), hadvance, move,
      putObject, modify_bind_apply, onUpdate, hbody]
    rfl
  · intro id' p hp
    exact h.players id' p (hlookup id' ▸ hp)
  · intro id' hid'
    rw [hlookup]
    exact h.fallen id' hid'
  · intro e' he'
    obtain ⟨id', p, hp, hrest⟩ := h.full e' he'
    exact ⟨id', p, (hlookup id').trans hp, hrest⟩

/-- The loop has still to go through `ids`, and `n` enemies have died or will have to. -/
structure Sweep (n : ℕ) (gen : γ) (ids : List ℕ) (g : GameObj γ) : Prop where
  /-- No object has two turns. -/
  nodup : ids.Nodup
  /-- The objects to come are there. -/
  alive : ∀ id ∈ ids, id ∈ g.objects
  /-- Nothing is drawn. -/
  gen : g.gen = gen
  /-- The dead enemy is among them. -/
  row : ∃ k dead, g.Row k dead ∧ k + dead.toList.length = n ∧ ∀ id, dead = some id → id ∈ ids

/-- The turn of one object. -/
theorem Sweep.update {n : ℕ} {gen : γ} {id : ℕ} {ids : List ℕ} (hn : n < 3000)
    (h : Sweep n gen (id :: ids) g) :
    ∃ a g', GameObj.update id g = .ok (a, g') ∧ Sweep n gen ids g' := by
  obtain ⟨k, dead, hrow, hk, hin⟩ := h.row
  obtain ⟨hout, hnodup⟩ := List.nodup_cons.mp h.nodup
  obtain ⟨e, he⟩ := Option.isSome_iff_exists.mp (AList.lookup_isSome.mpr (h.alive id List.mem_cons_self))
  by_cases hdead : dead = some id
  · subst hdead
    obtain ⟨g', hrun, hrow', hgen, hkeep⟩ := hrow.ensures_remove he
    refine ⟨(), g', hrun, hnodup, fun id' hid' => ?_, hgen.trans h.gen, k + 1, none, hrow', hk,
      fun _ hnone => absurd hnone (Option.some_ne_none _).symm⟩
    refine hkeep id' ?_ (h.alive id' (List.mem_cons_of_mem _ hid'))
    rintro rfl
    exact hout hid'
  · obtain ⟨g', hrun, hrow', hgen, hkeep⟩ := hrow.ensures_stand (by omega) he hdead
    refine ⟨(), g', hrun, hnodup, fun id' hid' => hkeep id' (h.alive id' (List.mem_cons_of_mem _ hid')),
      hgen.trans h.gen, k, dead, hrow', hk, fun id' hid' => ?_⟩
    refine (List.mem_cons.mp (hin id' hid')).resolve_left ?_
    rintro rfl
    exact hdead hid'

/-- **The loop removes the dead enemy**, and the players stay. -/
theorem updateAll_row [DictOrder ℕ] (h : g.Row k dead) (hk : k + dead.toList.length < 3000) :
    ∃ g', updateAll g = .ok ((), g') ∧ g'.Row (k + dead.toList.length) none ∧ g'.gen = g.gen := by
  have hstart : Sweep (k + dead.toList.length) g.gen g.allEntityObjects.items g := by
    refine ⟨PyDict.nodup_items _, fun id hid => (h.indexed.all id).mp (PyDict.mem_items.mp hid), rfl, k,
      dead, h, rfl, fun id hid => ?_⟩
    obtain ⟨e, he, -⟩ := h.fallen id hid
    exact PyDict.mem_items.mpr ((h.indexed.all id).mpr (AList.lookup_isSome.mp (by rw [he]; rfl)))
  obtain ⟨⟨⟩, g', hrun, hend⟩ := Ensures.forM (I := Sweep (k + dead.toList.length) g.gen)
    (fun id ids g' hg' => hg'.update hk) g.allEntityObjects.items g hstart
  obtain ⟨k', dead', hrow, hk', hin⟩ := hend.row
  obtain rfl : dead' = none := Option.eq_none_iff_forall_ne_some.mpr fun id hid =>
    List.not_mem_nil (hin id hid)
  obtain rfl : k' = k + dead.toList.length := hk'
  exact ⟨g', hrun, hrow, hend.gen⟩

end Row

/-! ## A frame without entries -/

section Frames

variable [PyRandom γ] [DictOrder ℕ]

/-- **A turn of a row**: if an enemy appears it dies. -/
theorem Row.updateCtrlOnce {g : GameObj γ} {k : ℕ} (h : g.Row k none) (hk : k < 2999) :
    ∃ g', GameObj.updateCtrlOnce g = .ok ((), g') ∧ g'.Row (k + (appear g.gen).1.toNat) none ∧
      g'.gen = (appear g.gen).2 := by
  have hrow : (g.withGen (appear g.gen).2).Row k none := h.withGen _
  obtain ⟨⟨⟩, g₁, hspawn, hg₁⟩ := ensures_spawnEnemy_appear h.seeded g.gen g rfl
  obtain ⟨e?, he, hcount, rfl⟩ : ∃ e? : Option Entity, (∀ e ∈ e?, e.Appears) ∧
      e?.toList.length = (appear g.gen).1.toNat ∧
      g₁ = e?.elim (g.withGen (appear g.gen).2) fun e => create e (g.withGen (appear g.gen).2) := by
    rcases hg₁ with ⟨happ, rfl⟩ | ⟨happ, e, he, rfl⟩
    · exact ⟨none, fun _ hnone => absurd hnone (Option.not_mem_none _), by rw [happ]; rfl, rfl⟩
    · refine ⟨some e, fun e' he' => ?_, by rw [happ]; rfl, rfl⟩
      rw [← Option.mem_some_iff.mp he']
      exact he
  obtain ⟨g₂, dead, hloops, hrow₂, hdead, hgen₂⟩ := hrow.collide_row hk e? he
  have hle : dead.toList.length ≤ 1 := by
    rw [hdead]
    cases e? with
    | none => exact Nat.zero_le 1
    | some e => exact le_rfl
  obtain ⟨g₃, hall, hrow₃, hgen₃⟩ := hrow₂.updateAll_row (by omega)
  refine ⟨g₃, ?_, ?_, hgen₃.trans hgen₂⟩
  · obtain ⟨⟨⟩, g', hfirst, hsecond⟩ := bind_eq_ok.mp hloops
    rw [GameObj.updateCtrlOnce, bind_of_ok hspawn, bind_of_ok hfirst, bind_of_ok hsecond]
    exact hall
  · rw [← hcount, ← hdead]
    exact hrow₃

/-- One frame without entries. -/
theorem Row.updateFrame {data : FrameInfo} (hempty : data.ctrlData = []) {g : GameObj γ} {k : ℕ}
    (h : g.Row k none) (hk : k < 2999) :
    ∃ g', GameObj.updateFrame data g = .ok ((), g') ∧ g'.Row (k + (appear g.gen).1.toNat) none ∧
      g'.gen = (appear g.gen).2 := by
  have hrow : ({ g with gsFrameNo := data.frameNumber } : GameObj γ).Row k none :=
    h.congr rfl rfl (fun t => by cases t <;> rfl) rfl rfl rfl rfl
  obtain ⟨g', hrun, hrow', hgen⟩ := hrow.updateCtrlOnce hk
  refine ⟨g', ?_, hrow', hgen⟩
  rw [GameObj.updateFrame, modify_bind_apply, bind_of_ok hrun, hempty]
  rfl

/-- **Frames without entries**, in front of a row: the score says how many enemies have appeared. -/
theorem Row.forM_updateFrame {frames : List FrameInfo} (hempty : ∀ data ∈ frames, data.ctrlData = [])
    {g : GameObj γ} {k : ℕ} (h : g.Row k none) (hk : (appearAll frames.length k g.gen).1 < 2999) :
    ∃ g', frames.forM GameObj.updateFrame g = .ok ((), g') ∧
      g'.Row (appearAll frames.length k g.gen).1 none ∧ g'.gen = (appearAll frames.length k g.gen).2 := by
  induction frames generalizing g k with
  | nil => exact ⟨g, rfl, h, rfl⟩
  | cons data frames ih =>
      obtain ⟨g₁, hdata, hrow₁, hgen₁⟩ := h.updateFrame (hempty data List.mem_cons_self)
        ((appearAll_mono (Nat.zero_le _) k g.gen).trans_lt hk)
      rw [List.length_cons, appearAll_succ] at hk ⊢
      obtain ⟨g₂, hrest, hrow₂, hgen₂⟩ := ih (fun data' hdata' => hempty data' (List.mem_cons_of_mem _ hdata'))
        hrow₁ (by rw [hgen₁]; exact hk)
      rw [hgen₁] at hrow₂ hgen₂
      exact ⟨g₂, bind_eq_ok.mpr ⟨(), g₁, hdata, hrest⟩, hrow₂, hgen₂⟩

end Frames

/-! ## Twelve players -/

/-- Twelve players in front of the enemies, seventy apart, and others that stand somewhere. -/
def twelveStand (g : GameObj γ) : Bool :=
  g.objects.entries.all (fun entry => entry.2.stands && 3000 ≤ entry.2.blood) &&
    ((List.range 12).all fun i => g.objects.entries.any fun entry =>
      entry.2.x = 30 + 70 * i && entry.2.z = 20 && entry.2.width = 40 && entry.2.height = 40) &&
    g.curScore = 0 && !g.gameOver

/-- No enemy can appear between them. -/
theorem exists_crosses {e : Entity} (he : e.Appears) : ∃ i < 12, ∀ p : Entity,
    p.x = 30 + 70 * (i : ℕ) → p.z = 20 → p.width = 40 → p.height = 40 → e.is2RectsCross p = true := by
  obtain ⟨⟨hx, hx'⟩, ⟨hz, hz'⟩, ⟨hwidth, hheight⟩, -, -⟩ := he
  refine ⟨((e.x + 5) / 70).toNat, by omega, fun p hpx hpz hpw hph => ?_⟩
  simp only [is2RectsCross, hpx, hpz, hpw, hph, Bool.not_eq_true', Bool.or_eq_false_iff,
    decide_eq_false_iff_not, not_lt]
  omega

/-- **Twelve such players are a row.** -/
theorem row_of_twelveStand {g : GameObj γ} (hrun : g.Running []) (h : g.twelveStand = true) :
    g.Row 0 none := by
  simp only [twelveStand, Bool.and_eq_true, List.all_eq_true, List.any_eq_true, List.mem_range,
    decide_eq_true_eq, Bool.not_eq_true'] at h
  obtain ⟨⟨⟨hstand, hplaces⟩, hscore⟩, hover⟩ := h
  refine ⟨hrun.indexed, hrun.seeded, fun id e he _ => ?_, fun _ hnone => ?_, fun e he => ?_, hscore, hover⟩
  · obtain ⟨hstands, hblood⟩ := hstand _ (AList.mem_lookup_iff.mp he)
    exact ⟨hstands, by simpa using hblood⟩
  · exact absurd hnone (Option.some_ne_none _).symm
  · obtain ⟨i, hi, hcross⟩ := exists_crosses he
    obtain ⟨entry, hentry, ⟨⟨hx, hz⟩, hwidth⟩, hheight⟩ := hplaces i hi
    exact ⟨entry.1, entry.2, AList.mem_lookup_iff.mpr hentry, (Option.some_ne_none _).symm,
      hcross _ hx hz hwidth hheight⟩

end GameObj

end FrameSync.Client
