import FrameSync.Client.Collisions
import FrameSync.Client.Traces

/-! # A turn of `update_ctrl_once`

What the three parts of `update_ctrl_once` do to the objects: at most one enemy is created, some blood
is lost, and then each object is either removed or moves once, while the players fire at most one
bullet each (`Swept`). None of their operations creates a player (`TurnStep`). -/

namespace FrameSync.Client

variable {γ : Type}

namespace GameObj

/-- An operation of `update_ctrl_once`, but its end. -/
def TurnStep (_ : GameObj γ) (o : EntityOp) (_ : GameObj γ) : Prop := o.InTurn

/-- How many of the ids are those of players. -/
def playersIn (g : GameObj γ) (ids : List ℕ) : ℕ :=
  ids.countP fun id => (g.objects.lookup id).any fun e => e.type = .player

/-- As many ids of `m_AllEntityObjects` are those of players as `m_PlayerObjects` has. -/
theorem Indexed.playersIn_items [DictOrder ℕ] {g : GameObj γ} (h : g.Indexed) :
    g.playersIn g.allEntityObjects.items = g.playerObjects.keys.length := by
  rw [playersIn, List.countP_eq_length_filter]
  refine List.Perm.length_eq ?_
  rw [List.perm_ext_iff_of_nodup (g.allEntityObjects.nodup_items.filter _) g.playerObjects.nodup_keys]
  intro id
  have hdict : id ∈ g.playerObjects.keys ↔ ∃ e, g.objects.lookup id = some e ∧ e.type = .player :=
    h.dict id .player
  rw [List.mem_filter, PyDict.mem_items, h.all, hdict, ← AList.lookup_isSome, Option.any_eq_true]
  constructor
  · rintro ⟨-, e, he, ht⟩
    exact ⟨e, he, of_decide_eq_true ht⟩
  · rintro ⟨e, he, ht⟩
    exact ⟨by rw [he]; rfl, e, he, decide_eq_true ht⟩

/-! ## The loop over all objects -/

/-- The loop over all objects began with `g` and has still to go through `rest`, and so many bullets
may be fired before it goes on. -/
structure Swept (g : GameObj γ) (shots : ℕ) (rest : List ℕ) (g' : GameObj γ) : Prop where
  /-- No object has two turns. -/
  nodup : rest.Nodup
  /-- The objects to come were there at the beginning. -/
  old : ∀ id ∈ rest, id ≤ g.entityId
  /-- They have not changed. -/
  pending : ∀ id ∈ rest, g'.objects.lookup id = g.objects.lookup id
  /-- `ENTITY_ID` grows. -/
  grows : g.entityId ≤ g'.entityId
  /-- Of the other objects those are left that were alive and on the screen, and they have moved. -/
  moved : ∀ id e', id ≤ g.entityId → id ∉ rest → g'.objects.lookup id = some e' →
    ∃ e, g.objects.lookup id = some e ∧ (e.isDead || e.isOutScreen) = false ∧ e'.type = e.type ∧
      (e.type ≠ .player → e' = e.advance)
  /-- The new objects are bullets. -/
  fired : ∀ id e', g.entityId < id → g'.objects.lookup id = some e' →
    ∃ x z, z ≤ screenHeight ∧ e' = initBullet x z
  /-- There are at most as many as there were players, less those who may still fire. -/
  count : g'.entityId + shots + g.playersIn rest ≤ g.entityId + g.playerObjects.keys.length

namespace Swept

variable {g g' : GameObj γ} {shots : ℕ} {ids : List ℕ} {id : ℕ} {e : Entity}

/-- The object whose turn it is was not changed. -/
theorem head (h : Swept g shots (id :: ids) g') (he : g'.objects.lookup id = some e) :
    g.objects.lookup id = some e := (h.pending id List.mem_cons_self).symm.trans he

/-- An object is removed. -/
theorem remove (h : Swept g shots (id :: ids) g') (e : Entity) :
    Swept g shots ids ((g'.rewarded e).unstore id e) := by
  obtain ⟨hid, hnodup⟩ := List.nodup_cons.mp h.nodup
  have hlookup : ∀ id', ((g'.rewarded e).unstore id e).objects.lookup id'
      = if id' = id then none else g'.objects.lookup id' := by
    intro id'
    rw [lookup_unstore, objects_rewarded]
  have hentity : ((g'.rewarded e).unstore id e).entityId = g'.entityId := (g'.rewarded_toIndex e).2.2.1
  refine ⟨hnodup, fun id' hid' => h.old id' (List.mem_cons_of_mem _ hid'), fun id' hid' => ?_, ?_,
    fun id' e' hle hout he' => ?_, fun id' e' hlt he' => ?_, ?_⟩
  · have hne : id' ≠ id := by
      rintro rfl
      exact hid hid'
    rw [hlookup, if_neg hne]
    exact h.pending id' (List.mem_cons_of_mem _ hid')
  · rw [hentity]
    exact h.grows
  · rw [hlookup] at he'
    split_ifs at he' with heq
    exact h.moved id' e' hle (fun hmem => (List.mem_cons.mp hmem).elim heq hout) he'
  · rw [hlookup] at he'
    split_ifs at he' with heq
    exact h.fired id' e' hlt he'
  · have hcount := h.count
    rw [playersIn, List.countP_cons] at hcount
    rw [hentity, playersIn]
    omega

/-- An object moves. A player may fire now. -/
theorem move (h : Swept g shots (id :: ids) g') (he : g'.objects.lookup id = some e)
    (hstays : (e.isDead || e.isOutScreen) = false) :
    Swept g (shots + if e.type = .player then 1 else 0) ids (g'.put id e.advance) := by
  obtain ⟨hid, hnodup⟩ := List.nodup_cons.mp h.nodup
  have he₀ := h.head he
  refine ⟨hnodup, fun id' hid' => h.old id' (List.mem_cons_of_mem _ hid'), fun id' hid' => ?_, h.grows,
    fun id' e' hle hout he' => ?_, fun id' e' hlt he' => ?_, ?_⟩
  · have hne : id' ≠ id := by
      rintro rfl
      exact hid hid'
    rw [lookup_put he, if_neg hne]
    exact h.pending id' (List.mem_cons_of_mem _ hid')
  · rw [lookup_put he] at he'
    split_ifs at he' with heq
    · subst heq
      obtain rfl := Option.some.inj he'
      exact ⟨e, he₀, hstays, e.type_advance, fun _ => rfl⟩
    · exact h.moved id' e' hle (fun hmem => (List.mem_cons.mp hmem).elim heq hout) he'
  · rw [lookup_put he] at he'
    split_ifs at he' with heq
    · have hle := h.old id List.mem_cons_self
      omega
    · exact h.fired id' e' hlt he'
  · -- The turn of a player is used up, and one shot is granted for it.
    have hcount := h.count
    rw [playersIn, List.countP_cons, he₀, Option.any_some] at hcount
    simp only [decide_eq_true_eq] at hcount
    show g'.entityId + _ + g.playersIn ids ≤ _
    rw [playersIn]
    omega

/-- A bullet is fired. -/
theorem fire (h : Swept g (shots + 1) ids g') {x z : ℤ} (hz : z ≤ screenHeight) :
    Swept g shots ids (g'.create (initBullet x z)) := by
  have hgrows := h.grows
  refine ⟨h.nodup, h.old, fun id' hid' => ?_, ?_, fun id' e' hle hout he' => ?_, fun id' e' hlt he' => ?_,
    ?_⟩
  · have hle := h.old id' hid'
    rw [lookup_create, if_neg (by omega)]
    exact h.pending id' hid'
  · show g.entityId ≤ g'.entityId + 1
    omega
  · rw [lookup_create, if_neg (by omega)] at he'
    exact h.moved id' e' hle hout he'
  · rw [lookup_create] at he'
    split_ifs at he' with heq
    · exact ⟨x, z, hz, (Option.some.inj he').symm⟩
    · exact h.fired id' e' hlt he'
  · have hcount := h.count
    show g'.entityId + 1 + shots + g.playersIn ids ≤ _
    omega

/-- A player that had its turn counts its shots. -/
theorem write (h : Swept g shots ids g') (hid : id ∉ ids) {e' : Entity}
    (he : g'.objects.lookup id = some e) (hplayer : e.type = .player) (htype : e'.type = e.type) :
    Swept g shots ids (g'.put id e') := by
  refine ⟨h.nodup, h.old, fun id' hid' => ?_, h.grows, fun id' e'' hle hout he'' => ?_,
    fun id' e'' hlt he'' => ?_, h.count⟩
  · have hne : id' ≠ id := by
      rintro rfl
      exact hid hid'
    rw [lookup_put he, if_neg hne]
    exact h.pending id' hid'
  · rw [lookup_put he] at he''
    split_ifs at he'' with heq
    · subst heq
      obtain rfl := Option.some.inj he''
      obtain ⟨e₀, he₀, hstays, ht, -⟩ := h.moved id' e hle hout he
      exact ⟨e₀, he₀, hstays, htype.trans ht, fun hne => absurd (ht.symm.trans hplayer) hne⟩
    · exact h.moved id' e'' hle hout he''
  · rw [lookup_put he] at he''
    split_ifs at he'' with heq
    · subst heq
      obtain ⟨x, z, -, rfl⟩ := h.fired id' e hlt he
      change EntityType.bullet = .player at hplayer
      cases hplayer
    · exact h.fired id' e'' hlt he''

/-- Shots that are not fired. -/
theorem hold (h : Swept g (shots + 1) ids g') : Swept g shots ids g' := by
  refine { h with count := ?_ }
  have hcount := h.count
  omega

end Swept

/-- Every player is on the screen. -/
def Inside (g : GameObj γ) : Prop :=
  ∀ id e, g.objects.lookup id = some e → e.type = .player → e.isOutScreen = false

end GameObj

/-! ## Players stay on the screen -/

/-- On the screen. -/
theorem Entity.isOutScreen_eq_false {e : Entity} :
    e.isOutScreen = false ↔ (0 ≤ e.x ∧ e.x ≤ screenWidth) ∧ 0 ≤ e.z ∧ e.z ≤ screenHeight := by
  simp only [isOutScreen, Bool.or_eq_false_iff, decide_eq_false_iff_not, not_lt]
  tauto

/-- A move goes along one axis. -/
theorem Entity.moveBy_axis (e : Entity) (dir : ℤ) :
    (e.moveBy dir).x = e.x ∨ (e.moveBy dir).z = e.z := by
  unfold moveBy
  split_ifs
  all_goals simp

/-- `clamp` puts one coordinate back, which is enough when the other is in range. -/
theorem Entity.isOutScreen_clamp {e : Entity}
    (h : (0 ≤ e.x ∧ e.x ≤ screenWidth) ∨ (0 ≤ e.z ∧ e.z ≤ screenHeight)) :
    e.clamp.isOutScreen = false := by
  have hscreen : (0 : ℤ) ≤ screenWidth ∧ (0 : ℤ) ≤ screenHeight := by decide
  rw [isOutScreen_eq_false]
  unfold clamp
  split_ifs
  all_goals first | omega | (dsimp only; omega)

/-- **A player on the screen stays there.** -/
theorem Entity.isOutScreen_advance {e : Entity} (hplayer : e.type = .player)
    (h : e.isOutScreen = false) : e.advance.isOutScreen = false := by
  unfold advance
  split
  · exact h
  · rename_i dir _
    split_ifs
    · exact h
    · rw [isOutScreen_eq_false] at h
      refine isOutScreen_clamp ?_
      rcases e.moveBy_axis dir with haxis | haxis
      · rw [haxis]
        exact Or.inl h.1
      · rw [haxis]
        exact Or.inr h.2

namespace Observing

open GameObj Observed

variable {P : GameObj γ → Prop}

/-! ## The parts of a turn -/

/-- A collision loop is made of hits. -/
theorem turn_collide [DictOrder ℕ] (outer inner : GameObj γ → PyDict ℕ) :
    Traces TurnStep (fun _ => True) (collide outer inner : Observing γ Unit) fun _ _ => True := by
  have hpair : ∀ id₁ id₂, Traces TurnStep (fun _ => True) (collidePair id₁ id₂ : Observing γ Unit)
      fun _ _ => True := by
    intro id₁ id₂
    refine ((traces_object id₁).mono (fun _ h => h) fun _ _ _ => trivial).bind fun e₁ => ?_
    refine ((traces_object id₂).mono (fun _ h => h) fun _ _ _ => trivial).bind fun e₂ => ?_
    refine Traces.ite (fun _ => ?_) fun _ => Traces.pure fun _ _ => trivial
    exact Traces.op fun _ _ _ _ _ => ⟨trivial, trivial⟩
  refine Traces.get_bind fun g _ => ?_
  refine (Traces.forM (I := fun _ (_ : GameObj γ) => True) (fun id₁ _ => ?_) _).mono
    (fun _ _ => trivial) fun _ _ h => h
  refine Traces.get_bind fun g _ => ?_
  exact (Traces.forM (I := fun _ (_ : GameObj γ) => True) (fun id₂ _ => hpair id₁ id₂) _).mono
    (fun _ _ => trivial) fun _ _ h => h

/-- It only takes blood. -/
theorem turn_collide_worn [DictOrder ℕ] {g : GameObj γ} (hindexed : g.Indexed) (t t' : EntityType)
    (hne : t ≠ t') (ht : t ≠ .player) :
    Traces TurnStep (· = g)
      (collide (fun g : GameObj γ => g.dictOf t) fun g => g.dictOf t') fun _ => Worn g := by
  rintro _ rfl a g' hrun
  refine ⟨(turn_collide _ _ _ trivial a g' hrun).1, ?_⟩
  obtain ⟨g'', hrun', hpaired, -⟩ := collide_paired t t' hindexed hne ht
  rw [run_collide, hrun'] at hrun
  obtain rfl := (Prod.mk.inj (Except.ok.inj hrun)).2
  exact hpaired.worn

/-- What `spawnEnemy` does. -/
theorem turn_spawnEnemy [PyRandom γ] (g : GameObj γ) :
    Traces TurnStep (· = g) (spawnEnemy : Observing γ Unit)
      fun _ g' => ∃ gen, g' = { g with gen := gen } ∨
        ∃ e, NewEnemy e ∧ g' = create e { g with gen := gen } := by
  refine (traces_spawnEnemy (P := fun g' => ∃ gen, g' = { g with gen := gen }) ?_ ?_ ?_).mono ?_
    fun _ _ h => h
  · rintro _ gen' ⟨gen, rfl⟩
    exact ⟨trivial, gen', rfl⟩
  · rintro _ e ⟨gen, rfl⟩ he
    exact ⟨by rw [TurnStep, EntityOp.InTurn, Entity.pid?, he.body], gen, Or.inr ⟨e, he, rfl⟩⟩
  · rintro _ ⟨gen, rfl⟩
    exact ⟨gen, Or.inl rfl⟩
  · exact fun g' hg' => ⟨g.gen, hg'⟩

/-- The `update` of one object. -/
theorem turn_update {g : GameObj γ} (hin : g.Inside) (id : ℕ) (ids : List ℕ) :
    Traces TurnStep (Swept g 0 (id :: ids)) (update id : Observing γ Unit) fun _ => Swept g 0 ids := by
  refine (traces_object id).bind fun e => Traces.ite (fun _ => ?_) fun hstays => ?_
  · exact traces_remove fun g' hg' => ⟨hg'.2, trivial, hg'.1.remove e⟩
  · rw [Bool.not_eq_true] at hstays
    -- After the move: `shots` is 1 while the player has yet to decide whether it fires.
    let moved (shots : ℕ) (g' : GameObj γ) : Prop :=
      Swept g shots ids g' ∧ id ∉ ids ∧ g'.objects.lookup id = some e.advance ∧
        id ≤ g.entityId ∧ (e.type = .player → e.advance.isOutScreen = false)
    refine Traces.bind (Q := fun _ => moved (0 + if e.type = .player then 1 else 0))
      (traces_putObject fun g' hg' => ?_) fun _ => ?_
    · obtain ⟨hswept, he⟩ := hg'
      refine ⟨trivial, hswept.move he hstays, (List.nodup_cons.mp hswept.nodup).1, ?_,
        hswept.old id List.mem_cons_self, fun hplayer => ?_⟩
      · rw [lookup_put he, if_pos rfl]
      · exact Entity.isOutScreen_advance hplayer (hin id e (hswept.head he) hplayer)
    · rw [← Entity.type_advance e]
      refine traces_onUpdate (S := moved 0) (fun g' hg' => ?_) (fun htype g' hg' => ?_)
        (fun htype g' hg' => ?_) fun htype g' e' hg' _ ht _ _ => ?_
      · obtain ⟨hswept, -⟩ := hg'
        split at hswept
        · exact hswept.hold
        · exact hswept
      · rw [if_pos htype] at hg'
        exact ⟨hg'.1.hold, hg'.2⟩
      · rw [if_pos htype] at hg'
        obtain ⟨hswept, hid, he, hle, hscreen⟩ := hg'
        have hz := (Entity.isOutScreen_eq_false.mp (hscreen (e.type_advance.symm.trans htype))).2.2
        refine ⟨rfl, hswept.fire hz, hid, ?_, hle, hscreen⟩
        have hgrows := hswept.grows
        rw [lookup_create, if_neg (by omega)]
        exact he
      · obtain ⟨hswept, hid, he, -⟩ := hg'
        exact ⟨trivial, hswept.write hid he htype ht⟩

/-- **The loop over all objects**: each moves once or is removed, and each player fires at most once. -/
theorem turn_updateAll [DictOrder ℕ] {g : GameObj γ} (hindexed : g.Indexed) (hin : g.Inside) :
    Traces TurnStep (· = g) (updateAll : Observing γ Unit) fun _ => Swept g 0 [] := by
  have hstored : ∀ id, id ∈ g.allEntityObjects.items ↔ id ∈ g.objects := fun id =>
    PyDict.mem_items.trans (hindexed.all id)
  refine Traces.get_bind fun g' hg' => ?_
  subst hg'
  refine (Traces.forM (I := Swept g' 0) (turn_update hin) _).mono ?_ fun _ _ h => h
  rintro _ rfl
  refine ⟨PyDict.nodup_items _, fun id hid => hindexed.fresh id ((hstored id).mp hid), fun _ _ => rfl,
    le_rfl, fun id e _ hout he => ?_, fun id e hlt he => ?_, ?_⟩
  · exact absurd ((hstored id).mpr (AList.lookup_isSome.mp (by rw [he]; rfl))) hout
  · have hle := hindexed.fresh id (AList.lookup_isSome.mp (by rw [he]; rfl))
    omega
  · rw [hindexed.playersIn_items]
    exact le_rfl

end Observing

end FrameSync.Client
