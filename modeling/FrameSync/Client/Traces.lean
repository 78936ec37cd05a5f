import FrameSync.Client.Lockstep
import FrameSync.Client.Steps

/-! # A client does nothing but these steps

Triples for the observed methods, in the order of `GameObj`: from a consistent game without dead
objects every method makes steps of `EntityStep` and leaves such a game (`traces_updateFrame`,
`traces_finish`). So the operations of a run are a path from the new game to the present one
(`path_run`). -/

namespace FrameSync.Client

variable {γ : Type}

/-! ## The methods make these steps -/

namespace GameObj

/-- The objects of the list have a type. -/
def Typed (t : EntityType) (ids : List ℕ) (g : GameObj γ) : Prop := ∀ id ∈ ids, g.HasType id t

/-- What is known of the player of an entry after it. -/
def Acted (pid : Pid) (action : ℤ) (g : GameObj γ) : Prop :=
  (action = actionEnter → ∃ id, g.pidAt id = some pid) ∧
    (action = actionLeave → ∀ id, g.pidAt id ≠ some pid)

/-- What is known of an object that was read. -/
theorem object_eq_ok {id : ℕ} {g g' : GameObj γ} {e : Entity} (h : object id g = .ok (e, g')) :
    g = g' ∧ g.objects.lookup id = some e := by
  rw [object, Program.get_bind_apply] at h
  cases he : g.objects.lookup id with
  | none =>
      rw [he] at h
      cases h
  | some e' =>
      rw [he] at h
      obtain ⟨rfl, rfl⟩ := Prod.mk.inj (Except.ok.inj h)
      exact ⟨rfl, rfl⟩

/-- What a draw does. -/
theorem randomInt_eq_ok [PyRandom γ] {lo hi n : ℤ} {g g' : GameObj γ}
    (h : randomInt lo hi g = .ok (n, g')) :
    (∃ gen, g' = { g with gen := gen }) ∧ (lo ≤ hi → lo ≤ n ∧ n ≤ hi) := by
  rw [randomInt, Program.get_bind_apply] at h
  split at h
  · cases h
  · obtain ⟨rfl, rfl⟩ := Prod.mk.inj (Except.ok.inj h)
    exact ⟨⟨_, rfl⟩, PyRandom.randint_mem lo hi g.gen⟩

/-- The reward for an object. -/
theorem reward_apply (obj : Entity) (g : GameObj γ) : reward obj g = .ok ((), g.rewarded obj) := by
  obtain ⟨x, z, width, height, color, speed, dir, blood, body⟩ := obj
  cases body with
  | enemy rewardScore =>
      show (if _ then _ else _ : Method γ Unit) g = .ok ((), if _ then _ else _)
      split_ifs
      · rfl
      · rfl
  | bullet | player => rfl

/-- Reading a list changes nothing. -/
theorem nth_eq_ok {α : Type} {lst : List α} {pos : ℤ} {a : α} {g g' : GameObj γ}
    (h : nth lst pos g = .ok (a, g')) : g = g' := by
  unfold nth at h
  cases hget : lst[(pos - 1).toNat]? with
  | none =>
      rw [hget] at h
      cases h
  | some b =>
      rw [hget] at h
      exact (Prod.mk.inj (Except.ok.inj h)).2

/-- What the deletion of an object that was read does. -/
theorem delete_eq_ok {id : ℕ} {obj : Entity} {g g' : GameObj γ}
    (h : (do
      let g ← get
      if id ∈ (g.dictOf obj.type).keys ∧ id ∈ g.allEntityObjects.keys then modify (unstore id obj)
      else throw .keyError : Method γ Unit) g = .ok ((), g')) : g' = g.unstore id obj := by
  rw [Program.get_bind_apply] at h
  split at h
  · exact (Prod.mk.inj (Except.ok.inj h)).2.symm
  · cases h

/-- What the removal of an object does. -/
theorem remove_eq_ok {id : ℕ} {obj : Entity} {g g' : GameObj γ} (he : g.objects.lookup id = some obj)
    (h : remove id obj g = .ok ((), g')) : g' = (g.rewarded obj).unstore id obj := by
  rw [remove, Program.bind_of_ok (reward_apply obj g)] at h
  obtain ⟨e, g₁, hread, hdelete⟩ := Program.bind_eq_ok.mp h
  obtain ⟨rfl, he'⟩ := object_eq_ok hread
  rw [objects_rewarded, he] at he'
  obtain rfl := Option.some.inj he'
  exact delete_eq_ok hdelete

/-- `get_player` finds the one object of a pid. -/
theorem Consistent.getPlayer_eq_some [DictOrder ℕ] {g : GameObj γ} (h : g.Consistent) {pid : Pid} {id : ℕ} :
    g.getPlayer pid = some id ↔ g.pidAt id = some pid := by
  constructor
  · intro hid
    have hfound := List.find?_some hid
    exact of_decide_eq_true hfound
  · intro hid
    obtain ⟨e, he, hpid⟩ := Option.bind_eq_some_iff.mp hid
    have hitem : id ∈ g.playerObjects.items :=
      PyDict.mem_items.mpr ((h.indexed.dict id .player).mpr ⟨e, he, type_of_pid? hpid⟩)
    cases hfind : g.getPlayer pid with
    | none =>
        have hnot := List.find?_eq_none.mp hfind id hitem
        exact absurd (decide_eq_true hid) hnot
    | some id' =>
        have hfound := List.find?_some hfind
        rw [h.unique id' id pid (of_decide_eq_true hfound) hid]

theorem Consistent.getPlayer_eq_none [DictOrder ℕ] {g : GameObj γ} (h : g.Consistent) {pid : Pid} :
    g.getPlayer pid = none ↔ ∀ id, g.pidAt id ≠ some pid := by
  rw [Option.eq_none_iff_forall_ne_some]
  exact forall_congr' fun id => not_congr h.getPlayer_eq_some

/-- What the constructor of a player makes. -/
theorem initPlayer_eq_ok {pid : Pid} {args : ActionEnter} {g g' : GameObj γ} {e : Entity}
    (h : initPlayer pid args g = .ok (e, g')) :
    g = g' ∧ NewPlayer pid e ∧ args.pos = some ⟨some e.x, some e.z⟩ := by
  obtain ⟨name, color, pos, cr, cg, cb, x, z, rfl, rfl, rfl⟩ := (initPlayer_ok_iff ..).mp ⟨_, h⟩
  obtain ⟨rfl, rfl⟩ := Prod.mk.inj (Except.ok.inj h)
  exact ⟨rfl, ⟨rfl, rfl, rfl⟩, rfl⟩

/-- Hits of two objects keep the types. -/
theorem Typed.hit {g : GameObj γ} {id₁ id₂ : ℕ} {e₁ e₂ : Entity} {t : EntityType} {ids : List ℕ}
    (h : g.Typed t ids) (h₁ : g.objects.lookup id₁ = some e₁) (h₂ : g.objects.lookup id₂ = some e₂)
    (hne : id₂ ≠ id₁) : ((g.put id₁ e₁.onHit).put id₂ e₂.onHit).Typed t ids := by
  intro id hid
  have h₂' : (g.put id₁ e₁.onHit).objects.lookup id₂ = some e₂ := by
    rw [lookup_put h₁, if_neg hne]
    exact h₂
  exact (hasType_put h₂' e₂.type_onHit id t).mpr ((hasType_put h₁ e₁.type_onHit id t).mpr (h id hid))

end GameObj

namespace Observing

open GameObj Observed

variable {N : ℤ → ℤ → Prop} {R : GameObj γ → EntityOp → GameObj γ → Prop} {P : GameObj γ → Prop}

/-! ### The operations, for any steps -/

theorem traces_object (id : ℕ) : Traces R P (reads (object id) : Observing γ Entity)
    fun e g => P g ∧ g.objects.lookup id = some e := by
  refine Traces.reads fun g hg e g' hrun => ?_
  obtain ⟨rfl, he⟩ := object_eq_ok hrun
  exact ⟨rfl, hg, he⟩

theorem traces_putObject {id : ℕ} {e : Entity} {Q : GameObj γ → Prop}
    (h : ∀ g, P g → R g (.wrote id e) (g.put id e) ∧ Q (g.put id e)) :
    Traces R P (putObject id e) fun _ => Q := by
  refine Traces.op fun g hg a g' hrun => ?_
  obtain rfl := (Prod.mk.inj (Except.ok.inj hrun)).2
  exact h g hg

theorem traces_createEntity {init : Observing γ Entity} {Q : GameObj γ → Prop}
    (h : Traces R P init fun e g => R g (.created (g.entityId + 1) e) (g.create e) ∧ Q (g.create e)) :
    Traces R P (createEntity init) fun _ => Q := by
  refine h.bind fun e => Traces.op fun g hg a g' hrun => ?_
  obtain rfl := (Prod.mk.inj (Except.ok.inj hrun)).2
  exact hg

theorem traces_destroyEntity {id : ℕ} {Q : GameObj γ → Prop}
    (h : ∀ g e, P g → g.objects.lookup id = some e →
      R g (.destroyed id e) (g.unstore id e) ∧ Q (g.unstore id e)) :
    Traces R P (destroyEntity id) fun _ => Q := by
  refine (traces_object id).bind fun e => Traces.op fun g hg a g' hrun => ?_
  obtain rfl := delete_eq_ok hrun
  exact h g e hg.1 hg.2

theorem traces_remove {id : ℕ} {e : Entity} {Q : GameObj γ → Prop}
    (h : ∀ g, P g → g.objects.lookup id = some e ∧
      R g (.removed id e) ((g.rewarded e).unstore id e) ∧ Q ((g.rewarded e).unstore id e)) :
    Traces R P (remove id e) fun _ => Q := by
  refine Traces.op fun g hg a g' hrun => ?_
  obtain ⟨he, hstep⟩ := h g hg
  obtain rfl := remove_eq_ok he hrun
  exact hstep

section Random

variable [PyRandom γ]

theorem traces_randomInt {lo hi : ℤ}
    (hdraw : ∀ g gen, P g → R g .drew { g with gen := gen } ∧ P { g with gen := gen }) :
    Traces R P (randomInt lo hi : Observing γ ℤ) fun n g => P g ∧ (lo ≤ hi → lo ≤ n ∧ n ≤ hi) := by
  refine Traces.op fun g hg n g' hrun => ?_
  obtain ⟨⟨gen, rfl⟩, hn⟩ := randomInt_eq_ok hrun
  exact ⟨(hdraw g gen hg).1, (hdraw g gen hg).2, hn⟩

/-- The constructor of an enemy only draws. -/
theorem traces_initEnemy
    (hdraw : ∀ g gen, P g → R g .drew { g with gen := gen } ∧ P { g with gen := gen }) :
    Traces R P (initEnemy : Observing γ Entity) fun e g => P g ∧ NewEnemy e := by
  refine (traces_randomInt hdraw).bind fun width => ?_
  refine Traces.bind ((traces_randomInt hdraw).mono (fun _ h => h.1) fun _ _ h => h) fun height => ?_
  refine Traces.bind (Q := fun _ g => P g) ?_ fun color => ?_
  · refine Traces.bind ((traces_randomInt hdraw).mono (fun _ h => h.1) fun _ _ h => h) fun pos => ?_
    exact Traces.reads fun g hg e g' hrun => ⟨nth_eq_ok hrun, nth_eq_ok hrun ▸ hg.1⟩
  refine (traces_randomInt hdraw).bind fun x => ?_
  refine Traces.bind ((traces_randomInt hdraw).mono (fun _ h => h.1) fun _ _ h => h) fun z => ?_
  refine Traces.bind (Q := fun speed g => P g ∧ 1 ≤ z ∧ 20 ≤ speed) ?_ fun speed => ?_
  · intro g hg speed g' hrun
    obtain ⟨hpath, hg', hspeed⟩ := traces_randomInt hdraw g hg.1 speed g' hrun
    exact ⟨hpath, hg', (hg.2 (by decide)).1, (hspeed (by decide)).1⟩
  · exact Traces.pure fun g hg => ⟨hg.1, rfl, rfl, rfl, hg.2.1, hg.2.2⟩

/-- An enemy is created, or none. -/
theorem traces_spawnEnemy {Q : GameObj γ → Prop}
    (hdraw : ∀ g gen, P g → R g .drew { g with gen := gen } ∧ P { g with gen := gen })
    (hnew : ∀ g e, P g → NewEnemy e → R g (.created (g.entityId + 1) e) (g.create e) ∧ Q (g.create e))
    (hnone : ∀ g, P g → Q g) : Traces R P (spawnEnemy : Observing γ Unit) fun _ => Q := by
  refine (traces_randomInt hdraw).bind fun n => Traces.ite (fun _ => ?_) fun _ => ?_
  · refine traces_createEntity (((traces_initEnemy hdraw).mono (fun _ h => h.1)) fun e g hg => ?_)
    exact hnew g e hg.1 hg.2
  · exact Traces.pure fun g hg => hnone g hg.1

end Random

/-! ### One turn of `update_ctrl_once` -/

/-- Two objects of types that may meet. -/
theorem traces_collidePair {t t' : EntityType}
    (htypes : ∀ e₁ e₂ : Entity, e₁.type = t → e₂.type = t' → Foes e₁ e₂)
    {ids ids' : List ℕ} {id₁ id₂ : ℕ} (h₁ : id₁ ∈ ids) (h₂ : id₂ ∈ ids') :
    Traces (EntityStep N) (fun g => g.Consistent ∧ g.Typed t ids ∧ g.Typed t' ids')
      (collidePair id₁ id₂ : Observing γ Unit)
      fun _ g => g.Consistent ∧ g.Typed t ids ∧ g.Typed t' ids' := by
  refine (traces_object id₁).bind fun e₁ => (traces_object id₂).bind fun e₂ => ?_
  refine Traces.ite (fun hhit => ?_) fun _ => Traces.pure fun g hg => hg.1.1
  refine Traces.op fun g hg a g' hrun => ?_
  obtain rfl := (Prod.mk.inj (Except.ok.inj hrun)).2
  obtain ⟨⟨⟨hcons, htyped, htyped'⟩, he₁⟩, he₂⟩ := hg
  simp only [Bool.and_eq_true, Bool.not_eq_true'] at hhit
  have hfoes : Foes e₁ e₂ := by
    obtain ⟨e, he, ht⟩ := htyped id₁ h₁
    obtain ⟨e', he', ht'⟩ := htyped' id₂ h₂
    obtain rfl := Option.some.inj (he.symm.trans he₁)
    obtain rfl := Option.some.inj (he'.symm.trans he₂)
    exact htypes _ _ ht ht'
  have hstep : EntityStep N g (.hit id₁ id₂ e₁ e₂) ((g.put id₁ e₁.onHit).put id₂ e₂.onHit) :=
    .hit he₁ he₂ hhit.1.1 hhit.1.2 hfoes
  have hne := hfoes.ne he₁ he₂
  exact ⟨hstep, hstep.consistent hcons, htyped.hit he₁ he₂ hne, htyped'.hit he₁ he₂ hne⟩

section Frame

variable [DictOrder ℕ]

/-- A collision loop between objects of types that may meet. -/
theorem traces_collide (t t' : EntityType)
    (htypes : ∀ e₁ e₂ : Entity, e₁.type = t → e₂.type = t' → Foes e₁ e₂) :
    Traces (EntityStep N) Consistent (collide (fun g : GameObj γ => g.dictOf t) fun g => g.dictOf t')
      fun _ g => g.Consistent := by
  -- The loops run over snapshots of the dictionaries, so what the ids stand for has to be carried
  -- along.
  have typed : ∀ {g : GameObj γ} (_ : g.Consistent) (t : EntityType), g.Typed t (g.dictOf t).items :=
    fun hg t id hid => (hg.indexed.dict id t).mp (PyDict.mem_items.mp hid)
  refine Traces.get_bind fun g hg => ?_
  have houter : Traces (EntityStep N) (fun g' => g'.Consistent ∧ g'.Typed t (g.dictOf t).items)
      ((g.dictOf t).items.forM fun id₁ => do
        let g ← reads get
        (g.dictOf t').items.forM fun id₂ => collidePair id₁ id₂)
      fun _ (g' : GameObj γ) => g'.Consistent ∧ g'.Typed t [] := by
    refine Traces.forM (I := fun outer (g' : GameObj γ) => g'.Consistent ∧ g'.Typed t outer)
      (fun id₁ outer => ?_) _
    refine Traces.get_bind fun g hg => ?_
    have hinner : Traces (EntityStep N)
        (fun g' => g'.Consistent ∧ g'.Typed t (id₁ :: outer) ∧ g'.Typed t' (g.dictOf t').items)
        ((g.dictOf t').items.forM fun id₂ => collidePair id₁ id₂)
        fun _ (g' : GameObj γ) => g'.Consistent ∧ g'.Typed t (id₁ :: outer) ∧ g'.Typed t' [] := by
      refine Traces.forM (I := fun inner (g' : GameObj γ) =>
        g'.Consistent ∧ g'.Typed t (id₁ :: outer) ∧ g'.Typed t' inner) (fun id₂ inner => ?_) _
      have hmem : id₂ ∈ id₂ :: inner := List.mem_cons_self
      refine (traces_collidePair htypes List.mem_cons_self hmem).mono (fun _ h => h) fun _ g' h => ?_
      exact ⟨h.1, h.2.1, fun id hid => h.2.2 id (List.mem_cons_of_mem _ hid)⟩
    refine hinner.mono ?_ fun _ g' h => ⟨h.1, fun id hid => h.2.1 id (List.mem_cons_of_mem _ hid)⟩
    rintro _ rfl
    exact ⟨hg.1, hg.2, typed hg.1 t'⟩
  refine houter.mono ?_ fun _ g' h => h.1
  rintro _ rfl
  exact ⟨hg, typed hg t⟩

omit [DictOrder ℕ] in
/-- A player may fire, and then counts its shots. -/
theorem traces_onUpdate {id : ℕ} {obj : Entity} {S Q : GameObj γ → Prop} (hidle : ∀ g, P g → Q g)
    (hhold : obj.type = .player → ∀ g, P g → S g)
    (hfire : obj.type = .player → ∀ g, P g →
      R g (.created (g.entityId + 1) (initBullet obj.x obj.z)) (g.create (initBullet obj.x obj.z)) ∧
        S (g.create (initBullet obj.x obj.z)))
    (hcount : obj.type = .player → ∀ g e, S g → e.x = obj.x ∧ e.z = obj.z → e.type = obj.type →
      e.pid? = obj.pid? → e.blood = obj.blood → R g (.wrote id e) (g.put id e) ∧ Q (g.put id e)) :
    Traces R P (onUpdate id obj : Observing γ Unit) fun _ => Q := by
  unfold onUpdate
  split
  · rename_i pid name ackLoopCnt hbody
    have htype : obj.type = .player := by rw [Entity.type, hbody]
    refine Traces.bind (Q := fun _ => S) ?_ fun _ => traces_putObject fun g hg => ?_
    · refine Traces.ite (fun _ => ?_) fun _ => Traces.pure fun g hg => hhold htype g hg
      refine traces_createEntity (Traces.reads fun g hg e g' hrun => ?_)
      obtain ⟨rfl, rfl⟩ := Prod.mk.inj (Except.ok.inj hrun)
      exact ⟨rfl, hfire htype g hg⟩
    · refine hcount htype g _ hg ⟨rfl, rfl⟩ htype.symm ?_ rfl
      rw [Entity.pid?, Entity.pid?, hbody]
  · exact Traces.pure fun g hg => hidle g hg

omit [DictOrder ℕ] in
/-- After its `update` an object is not dead. -/
theorem traces_update (id : ℕ) (ids : List ℕ) :
    Traces (EntityStep N) (fun g => g.Consistent ∧ g.DeadIn (id :: ids))
      (update id : Observing γ Unit) fun _ g => g.Consistent ∧ g.DeadIn ids := by
  -- An object that is dead or out of the screen is removed; the others move and do their part.
  refine (traces_object id).bind fun e => Traces.ite (fun hgone => ?_) fun hstays => ?_
  · refine traces_remove fun g hg => ?_
    obtain ⟨⟨hcons, hdead⟩, he⟩ := hg
    have hstep : EntityStep N g (.removed id e) ((g.rewarded e).unstore id e) := .removed he hgone
    have hrewarded : (g.rewarded e).DeadIn (id :: ids) := by
      refine hdead.congr fun id' e' he' _ => ?_
      rwa [objects_rewarded] at he'
    exact ⟨he, hstep, hstep.consistent hcons, hrewarded.unstore e⟩
  · rw [Bool.not_eq_true] at hstays
    have halive : e.advance.isDead = false := by
      rw [Entity.isDead_advance]
      exact (Bool.or_eq_false_iff.mp hstays).1
    -- What holds between the move and the object's `onUpdate`.
    let moved (g : GameObj γ) : Prop :=
      g.Consistent ∧ g.DeadIn ids ∧ g.objects.lookup id = some e.advance
    refine Traces.bind (Q := fun _ => moved) (traces_putObject fun g hg => ?_) fun _ => ?_
    · obtain ⟨⟨hcons, hdead⟩, he⟩ := hg
      have hstep : EntityStep N g (.wrote id e.advance) (g.put id e.advance) := .moved he hstays
      refine ⟨hstep, hstep.consistent hcons, hdead.put he halive, ?_⟩
      rw [lookup_put he, if_pos rfl]
    · refine traces_onUpdate (S := moved) (fun g hg => ⟨hg.1, hg.2.1⟩) (fun _ g hg => hg)
        (fun htype g hg => ?_) fun htype g e' hg hpos ht hpid hblood => ?_
      · obtain ⟨hcons, hdead, he⟩ := hg
        have hstep : EntityStep N g (.created (g.entityId + 1) (initBullet e.advance.x e.advance.z))
            (g.create (initBullet e.advance.x e.advance.z)) := .fired he htype
        refine ⟨hstep, hstep.consistent hcons, hdead.create rfl, ?_⟩
        rw [lookup_create, if_neg]
        · exact he
        · rintro rfl
          rw [hcons.indexed.lookup_next] at he
          cases he
      · obtain ⟨hcons, hdead, he⟩ := hg
        have hstep : EntityStep N g (.wrote id e') (g.put id e') := .turned he htype hpos ht hpid hblood
        have halive' : e'.isDead = false := by rwa [Entity.isDead, hblood]
        exact ⟨hstep, hstep.consistent hcons, (hdead.mono (List.subset_cons_self id ids)).put he halive'⟩

/-- After the loop no object is dead. -/
theorem traces_updateAll : Traces (EntityStep N) Consistent (updateAll : Observing γ Unit)
    fun _ g => g.Consistent ∧ g.DeadIn [] := by
  refine Traces.get_bind fun g hg => ?_
  refine (Traces.forM (I := fun ids (g' : GameObj γ) => g'.Consistent ∧ g'.DeadIn ids)
    (fun id ids => traces_update id ids) _).mono ?_ fun _ g' h => h
  rintro _ rfl
  refine ⟨hg, fun id e he _ => PyDict.mem_items.mpr ((hg.indexed.all id).mpr ?_)⟩
  exact AList.lookup_isSome.mp (by rw [he]; rfl)

/-- `update_ctrl_once` ends without a dead object. -/
theorem traces_updateCtrlOnce [PyRandom γ] : Traces (EntityStep N) Consistent
    (updateCtrlOnce : Observing γ Unit) fun _ g => g.Consistent ∧ g.DeadIn [] := by
  have hspawn : Traces (EntityStep N) Consistent (spawnEnemy : Observing γ Unit)
      fun _ g => g.Consistent := by
    refine traces_spawnEnemy (fun g gen hg => ?_) (fun g e hg he => ?_) fun g hg => hg
    · have hstep : EntityStep N g .drew { g with gen := gen } := .drew gen
      exact ⟨hstep, hstep.consistent hg⟩
    · have hstep : EntityStep N g (.created (g.entityId + 1) e) (g.create e) := .spawned he
      exact ⟨hstep, hstep.consistent hg⟩
  refine hspawn.bind fun _ => ?_
  refine Traces.bind (traces_collide .bullet .enemy fun _ _ h h' => Or.inl ⟨h, h'⟩) fun _ => ?_
  refine Traces.bind (traces_collide .enemy .player fun _ _ h h' => Or.inr ⟨h, h'⟩) fun _ => ?_
  refine traces_updateAll.bind fun _ => Traces.op fun g hg a g' hrun => ?_
  obtain rfl := (Prod.mk.inj (Except.ok.inj hrun)).2
  exact ⟨.ctrlOnce hg.2, hg⟩

/-! ### A frame -/

/-- After it the pid has no object. -/
theorem traces_dropPlayer (pid : Pid) {action : ℤ} (haction : action = actionEnter ∨ action = actionLeave) :
    Traces (EntryStep N pid action) (fun g => g.Consistent ∧ g.DeadIn [])
      (dropPlayer pid : Observing γ Unit)
      fun _ g => g.Consistent ∧ g.DeadIn [] ∧ ∀ id, g.pidAt id ≠ some pid := by
  refine Traces.get_bind fun g hg => ?_
  cases hid : g.getPlayer pid with
  | none =>
      refine Traces.pure ?_
      rintro _ rfl
      exact ⟨hg.1, hg.2, hg.1.getPlayer_eq_none.mp hid⟩
  | some id =>
      refine traces_destroyEntity ?_
      rintro _ e rfl he
      have hpid := hg.1.getPlayer_eq_some.mp hid
      have halive : e.isDead = false := by
        rw [← Bool.not_eq_true]
        exact fun hdead => absurd (hg.2 id e he hdead) List.not_mem_nil
      refine ⟨⟨.destroyed he halive, ?_, fun henter hleave => ?_⟩, hg.1.unstore he,
        (hg.2.mono (List.nil_subset _)).unstore e, fun id' hid' => ?_⟩
      · rw [pidAt, he] at hpid
        exact hpid
      · exact absurd haction (not_or.mpr ⟨henter, hleave⟩)
      · rw [pidAt_unstore] at hid'
        split at hid'
        · cases hid'
        · rename_i hne
          exact hne (hg.1.unique id' id pid hid' hpid)

/-- A handler turns a player, or counts its shots. -/
theorem traces_handle {α : Type} (pid : Pid) {action : ℤ} {read : Method γ α}
    {handler : α → Entity → Entity} (hread : ∀ g a g', read g = .ok (a, g') → g = g')
    (hhandler : ∀ a e, ((handler a e).x = e.x ∧ (handler a e).z = e.z) ∧ (handler a e).type = e.type ∧
      (handler a e).pid? = e.pid? ∧ (handler a e).blood = e.blood) :
    Traces (EntryStep N pid action) (fun g => g.Consistent ∧ g.DeadIn []) (handle pid read handler)
      fun _ g => g.Consistent ∧ g.DeadIn [] := by
  refine Traces.get_bind fun g hg => ?_
  -- A player that is not there is passed by.
  cases hid : g.getPlayer pid with
  | none =>
      refine Traces.pure ?_
      rintro _ rfl
      exact hg
  | some id =>
      refine (traces_object id).bind fun e => ?_
      refine Traces.bind (Q := fun _ g' => g' = g ∧ g.objects.lookup id = some e) ?_ fun a => ?_
      · refine Traces.reads fun g₁ hg₁ a g₂ hrun => ?_
        obtain ⟨rfl, he⟩ := hg₁
        exact ⟨hread _ _ _ hrun, (hread _ _ _ hrun).symm, he⟩
      · refine traces_putObject ?_
        rintro g' ⟨heq, he⟩
        obtain rfl := heq
        obtain ⟨hpos, htype, hpid, hblood⟩ := hhandler a e
        have hpidAt := hg.1.getPlayer_eq_some.mp hid
        rw [pidAt, he] at hpidAt
        have hstep : EntityStep N g' (.wrote id (handler a e)) (g'.put id (handler a e)) :=
          .turned he (type_of_pid? hpidAt) hpos htype hpid hblood
        -- The handler does not touch the blood, so the object is as alive as it was.
        have halive : (handler a e).isDead = false := by
          rw [Entity.isDead, hblood, ← Entity.isDead, ← Bool.not_eq_true]
          exact fun hdead => absurd (hg.2 id e he hdead) List.not_mem_nil
        exact ⟨⟨hstep, hpid.trans hpidAt, fun _ _ => ⟨id, _, rfl⟩⟩, hstep.consistent hg.1,
          (hg.2.mono (List.nil_subset _)).put he halive⟩

/-- A player enters where the entry says. -/
theorem traces_enter (pid : Pid) {ctrl : CtrlInfo}
    (hN : ∀ args x z, ctrl.enterInfo = some args → args.pos = some ⟨some x, some z⟩ → N x z) :
    Traces (EntryStep N pid actionEnter) (fun g => g.Consistent ∧ g.DeadIn [])
      (enter pid ctrl : Observing γ Unit)
      fun _ g => g.Consistent ∧ g.DeadIn [] ∧ ∃ id, g.pidAt id = some pid := by
  refine (traces_dropPlayer pid (Or.inl rfl)).bind fun _ => ?_
  refine Traces.bind (Q := fun args g => ctrl.enterInfo = some args ∧ g.Consistent ∧ g.DeadIn [] ∧
    ∀ id, g.pidAt id ≠ some pid) (Traces.reads fun g hg args g' hrun => ?_) fun args => ?_
  · obtain ⟨hargs, rfl⟩ := key_ok hrun
    exact ⟨rfl, hargs, hg⟩
  · refine traces_createEntity (Traces.reads fun g hg e g' hrun => ?_)
    obtain ⟨hargs, hcons, hdead, hnone⟩ := hg
    obtain ⟨rfl, hnew, hpos⟩ := initPlayer_eq_ok hrun
    have hstep : EntityStep N g (.created (g.entityId + 1) e) (g.create e) :=
      .entered hnew (hN args e.x e.z hargs hpos) hnone
    refine ⟨rfl, ⟨hstep, hnew.pid, fun h => absurd rfl h⟩, hstep.consistent hcons, hdead.create ?_,
      g.entityId + 1, ?_⟩
    · rw [Entity.isDead, hnew.blood]
      rfl
    · rw [pidAt_create, if_pos rfl]
      exact hnew.pid

/-- **An entry concerns its sender only.** -/
theorem traces_act {ctrl : CtrlInfo} (hN : Placed N ctrl) :
    Traces (fun g o g' => ∃ pid action, ctrl.pid = some pid ∧ ctrl.action = some action ∧
        EntryStep N pid action g o g')
      (fun g => g.Consistent ∧ g.DeadIn []) (act ctrl : Observing γ Unit)
      fun _ g => g.Consistent ∧ g.DeadIn [] ∧
        ∃ pid action, ctrl.pid = some pid ∧ ctrl.action = some action ∧ g.Acted pid action := by
  -- An entry without `pid`, or without `action`, raises before anything is written.
  refine Traces.bind (Q := fun pid g => ctrl.pid = some pid ∧ g.Consistent ∧ g.DeadIn [])
    (Traces.reads fun g hg pid g' hrun => ?_) fun pid => ?_
  · obtain ⟨hpid, rfl⟩ := key_ok hrun
    exact ⟨rfl, hpid, hg⟩
  refine Traces.assume fun hpid => ?_
  refine Traces.bind (Q := fun action g => ctrl.action = some action ∧ g.Consistent ∧ g.DeadIn [])
    (Traces.reads fun g hg action g' hrun => ?_) fun action => ?_
  · obtain ⟨haction, rfl⟩ := key_ok hrun
    exact ⟨rfl, haction, hg⟩
  refine Traces.assume fun haction => ?_
  -- The four actions: `enter` and `leave` settle whether the player has an object, the other two
  -- leave that alone.
  have hacted : Traces (EntryStep N pid action) (fun g => g.Consistent ∧ g.DeadIn [])
      (if action = actionEnter then enter pid ctrl
        else if action = actionLeave then dropPlayer pid
        else if action = actionAttack then
          handle pid (attackArgs ctrl) fun status obj => obj.handleAttack status
        else if action = actionMove then
          handle pid (moveArgs ctrl) fun args obj => obj.handleMove args.1 args.2
        else pure () : Observing γ Unit)
      fun _ g => g.Consistent ∧ g.DeadIn [] ∧ g.Acted pid action := by
    refine Traces.ite (fun henter => ?_) fun henter => Traces.ite (fun hleave => ?_) fun hleave => ?_
    · rw [henter] at haction ⊢
      exact (traces_enter pid (hN haction)).mono (fun _ h => h) fun _ _ h =>
        ⟨h.1, h.2.1, fun _ => h.2.2, fun h => absurd h (by decide)⟩
    · exact (traces_dropPlayer pid (Or.inr hleave)).mono (fun _ h => h) fun _ _ h =>
        ⟨h.1, h.2.1, fun h => absurd h henter, fun _ => h.2.2⟩
    · have hother : ∀ g : GameObj γ, g.Acted pid action :=
        fun g => ⟨fun h => absurd h henter, fun h => absurd h hleave⟩
      have hwrites : Traces (EntryStep N pid action) (fun g : GameObj γ => g.Consistent ∧ g.DeadIn [])
          (if action = actionAttack then
            handle pid (attackArgs ctrl) fun status obj => obj.handleAttack status
          else if action = actionMove then
            handle pid (moveArgs ctrl) fun args obj => obj.handleMove args.1 args.2
          else pure ()) fun _ g => g.Consistent ∧ g.DeadIn [] := by
        refine Traces.ite (fun _ => ?_) fun _ => Traces.ite (fun _ => ?_) fun _ =>
          Traces.pure fun g hg => hg
        · exact traces_handle pid (fun g a g' h => (attackArgs_ok.mp h).2) fun a e =>
            e.handleAttack_keeps a
        · exact traces_handle pid (fun g a g' h => (moveArgs_ok.mp h).2) fun a e =>
            e.handleMove_keeps a.1 a.2
      exact hwrites.mono (fun _ h => h) fun _ g h => ⟨h.1, h.2, hother g⟩
  refine (hacted.weaken fun g o g' hstep => ⟨pid, action, hpid, haction, hstep⟩).mono (fun _ h => h) ?_
  exact fun _ g h => ⟨h.1, h.2.1, pid, action, hpid, haction, h.2.2⟩

variable [PyRandom γ]

theorem traces_updateEntry {ctrl : CtrlInfo} (hN : Placed N ctrl) :
    Traces (EntityStep N) (fun g => g.Consistent ∧ g.DeadIn []) (updateEntry ctrl : Observing γ Unit)
      fun _ g => g.Consistent ∧ g.DeadIn [] := by
  have hact : Traces (EntityStep N) (fun g => g.Consistent ∧ g.DeadIn []) (act ctrl : Observing γ Unit)
      fun _ g => g.Consistent := by
    refine ((traces_act hN).weaken ?_).mono (fun _ h => h) fun _ _ h => h.1
    rintro g o g' ⟨pid, action, -, -, h⟩
    exact h.step
  exact hact.bind fun _ => traces_updateCtrlOnce

/-- **A frame makes these steps only.** -/
theorem traces_updateFrame {msg : FrameInfo} (hN : ∀ ctrl ∈ msg.ctrlData, Placed N ctrl) :
    Traces (EntityStep N) Consistent (updateFrame msg : Observing γ Unit)
      fun _ g => g.Consistent ∧ g.DeadIn [] := by
  refine Traces.bind (Q := fun _ g => g.Consistent) (Traces.op fun g hg a g' hrun => ?_) fun _ => ?_
  · obtain rfl := (Prod.mk.inj (Except.ok.inj hrun)).2
    have hstep : EntityStep N g .began { g with gsFrameNo := msg.frameNumber } := .began _
    exact ⟨hstep, hstep.consistent hg⟩
  · refine traces_updateCtrlOnce.bind fun _ => ?_
    refine (Traces.forM (I := fun ctrls (g : GameObj γ) => (∀ ctrl ∈ ctrls, Placed N ctrl) ∧
      g.Consistent ∧ g.DeadIn []) (fun ctrl ctrls => Traces.assume fun hctrls => ?_) _).mono
      (fun _ h => ⟨hN, h⟩) fun _ _ h => h.2
    refine (traces_updateEntry (hctrls ctrl List.mem_cons_self)).mono (fun _ h => h) fun _ _ h => ?_
    exact ⟨fun ctrl' hctrl' => hctrls ctrl' (List.mem_cons_of_mem _ hctrl'), h⟩

omit [PyRandom γ] [DictOrder ℕ] in
/-- Destroying objects of one type, which is not that of players. -/
theorem traces_destroyAll {t : EntityType} (ht : t ≠ .player) (ids : List ℕ) :
    Traces (MobStep N) (fun g => ids.Nodup ∧ g.Typed t ids ∧ g.Consistent ∧ g.DeadIn [])
      (ids.forM destroyEntity : Observing γ Unit) fun _ g => g.Consistent ∧ g.DeadIn [] := by
  refine (Traces.forM (I := fun ids (g : GameObj γ) =>
    ids.Nodup ∧ g.Typed t ids ∧ g.Consistent ∧ g.DeadIn []) (fun id ids => ?_) ids).mono
    (fun _ h => h) fun _ _ h => h.2.2
  refine traces_destroyEntity ?_
  rintro g e ⟨hnodup, htyped, hcons, hdead⟩ he
  obtain ⟨hid, hnodup⟩ := List.nodup_cons.mp hnodup
  have halive : e.isDead = false := by
    rw [← Bool.not_eq_true]
    exact fun hdead' => absurd (hdead id e he hdead') List.not_mem_nil
  refine ⟨⟨.destroyed he halive, id, e, rfl, ?_⟩, hnodup, fun id' hid' => ?_, hcons.unstore he,
    (hdead.mono (List.nil_subset _)).unstore e⟩
  · obtain ⟨e', he', ht'⟩ := htyped id List.mem_cons_self
    obtain rfl := Option.some.inj (he.symm.trans he')
    rw [Option.eq_none_iff_forall_ne_some]
    exact fun pid hpid => ht (ht'.symm.trans (type_of_pid? hpid))
  · obtain ⟨e', he', ht'⟩ := htyped id' (List.mem_cons_of_mem _ hid')
    refine ⟨e', ?_, ht'⟩
    have hne : id' ≠ id := by
      rintro rfl
      exact hid hid'
    rw [lookup_unstore, if_neg hne]
    exact he'

omit [PyRandom γ] in
/-- The end of `update_logic` destroys bullets and enemies that are alive. -/
theorem traces_finish : Traces (MobStep N) (fun g => g.Consistent ∧ g.DeadIn [])
    (finish : Observing γ Unit) fun _ g => g.Consistent ∧ g.DeadIn [] := by
  have destroyDict : ∀ t, t ≠ EntityType.player →
      Traces (MobStep N) (fun g => g.Consistent ∧ g.DeadIn [])
        (do let g ← reads get; (g.dictOf t).items.forM destroyEntity : Observing γ Unit)
        fun _ g => g.Consistent ∧ g.DeadIn [] := by
    intro t ht
    refine Traces.get_bind fun g hg => (traces_destroyAll ht _).mono ?_ fun _ _ h => h
    rintro _ rfl
    refine ⟨PyDict.nodup_items _, fun id hid => ?_, hg⟩
    exact (hg.1.indexed.dict id t).mp (PyDict.mem_items.mp hid)
  refine Traces.get_bind fun g hg => Traces.ite (fun _ => ?_) fun _ => Traces.pure ?_
  · refine ((destroyDict .bullet (by decide)).bind fun _ => destroyDict .enemy (by decide)).mono ?_
      fun _ _ h => h
    rintro _ rfl
    exact hg
  · rintro _ rfl
    exact hg

/-- **What a client calls makes these steps only.** -/
theorem traces_call {a : Action} (hN : ∀ data ∈ a.applied, ∀ ctrl ∈ data.ctrlData, Placed N ctrl) :
    Traces (EntityStep N) (fun g => g.Consistent ∧ g.DeadIn []) (call a : Observing γ Unit)
      fun _ g => g.Consistent ∧ g.DeadIn [] := by
  cases a with
  | nothing => exact Traces.pure fun _ h => h
  | seed rndseed =>
      rw [call, setRndSeed]
      refine Traces.op fun g hg a g' hrun => ?_
      obtain rfl := (Prod.mk.inj (Except.ok.inj hrun)).2
      have hstep : EntityStep N g .seeded
          { g with rndSeed := some rndseed, gen := PyRandom.seed rndseed } := .seeded _ _
      exact ⟨hstep, hstep.consistent hg.1, hg.2⟩
  | frame data =>
      exact (traces_updateFrame (hN data (List.mem_singleton_self data))).mono (fun _ h => h.1)
        fun _ _ h => h
  | finish => exact traces_finish.weaken fun _ _ _ h => h.1

end Frame

end Observing

/-! ## The operations of a run -/

namespace Fsm

open GameObj

variable [PyRandom γ] [DictOrder ℕ]

/-- The operations of an event. -/
def opsBy (c : Fsm γ) (e : Event) : List (EntityOp × GameObj γ) :=
  match c.pace.step c.game.gameOver e with
  | none => []
  | some (_, a) => (Observing.call a).log c.game

/-- The operations of a run, each with the game it left. -/
def ops (tr : List (Fsm γ × Event)) : List (EntityOp × GameObj γ) := tr.flatMap fun x => x.1.opsBy x.2

theorem ops_snoc (tr : List (Fsm γ × Event)) (c : Fsm γ) (e : Event) :
    ops (tr ++ [(c, e)]) = ops tr ++ c.opsBy e := by
  simp [ops]

/-- **The operations of a run.** They are steps of `EntityStep` from the new game to the present one,
which is consistent and has no dead object. -/
theorem path_run {N : ℤ → ℤ → Prop} {pid : Pid} {gen : γ} {msg : Loginsuc}
    {tr : List (Fsm γ × Event)} {c : Fsm γ} (h : Run step (Fsm.init pid gen msg) tr c)
    (hN : ∀ data ∈ applied tr, ∀ ctrl ∈ data.ctrlData, Placed N ctrl) :
    Path (EntityStep N) (GameObj.init pid gen) (ops tr) c.game ∧ c.game.Consistent ∧
      c.game.DeadIn [] := by
  revert hN
  refine h.invariant (P := fun tr c => (∀ data ∈ applied tr, ∀ ctrl ∈ data.ctrlData, Placed N ctrl) →
    Path (EntityStep N) (GameObj.init pid gen) (ops tr) c.game ∧ c.game.Consistent ∧ c.game.DeadIn [])
    ?_ ?_
  · intro _
    refine ⟨.nil, consistent_init pid gen, fun id e he _ => ?_⟩
    cases he
  · intro tr c e c' _ ih hstep hN
    rw [applied_snoc] at hN
    obtain ⟨hpath, hg⟩ := ih fun data hdata => hN data (List.mem_append_left _ hdata)
    obtain ⟨a, hpace, hcall⟩ := step_eq_some.mp hstep
    have happlied : c.appliedBy e = a.applied := by rw [appliedBy, hpace]
    have hops : c.opsBy e = (Observing.call a).log c.game := by rw [opsBy, hpace]
    rw [← Observing.run_call] at hcall
    obtain ⟨hpath', hg'⟩ := Observing.traces_call
      (fun data hdata => hN data (List.mem_append_right _ (happlied ▸ hdata))) c.game hg () c'.game hcall
    rw [ops_snoc, hops]
    exact ⟨hpath.append hpath', hg'⟩

end Fsm

end FrameSync.Client
