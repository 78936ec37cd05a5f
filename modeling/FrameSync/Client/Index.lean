import FrameSync.Client.GameObj

/-! # The entity index and what may raise

The dicts of `CGameObj` agree with one another (`Indexed`), whatever a frame contains, so that no
lookup or deletion of an object fails: the simulation raises only where `update_frame` reads a key
that an entry of the frame lacks. The triples below carry a list of ids that must stay alive, because
the loops iterate over copies of the dicts. -/

namespace FrameSync.Client.GameObj

open Program

variable {γ : Type}

/-- The dicts agree: each object that is stored is in `m_AllEntityObjects` and in the dict of its
type, and nowhere else. -/
structure Indexed (g : GameObj γ) : Prop where
  /-- `m_AllEntityObjects` has the ids of the stored objects. -/
  all : ∀ id, id ∈ g.allEntityObjects.keys ↔ id ∈ g.objects
  /-- The dict of a type has the ids of the stored objects of that type. -/
  dict : ∀ id t, id ∈ (g.dictOf t).keys ↔ ∃ e, g.objects.lookup id = some e ∧ e.type = t
  /-- No id above `ENTITY_ID` is in use. -/
  fresh : ∀ id ∈ g.objects, id ≤ g.entityId

/-- The game runs: the index is right, `GAME_RND_SEED` is set, and the objects `ids` are alive. -/
structure Running (ids : List ℕ) (g : GameObj γ) : Prop where
  /-- The index is right. -/
  indexed : g.Indexed
  /-- `RandomInt` finds a seed. -/
  seeded : ¬ (g.rndSeed = none ∨ g.rndSeed = some 0)
  /-- The objects are stored. -/
  alive : ∀ id ∈ ids, id ∈ g.objects

namespace Running

variable {ids : List ℕ} {g g' : GameObj γ}

/-- Only the index, the objects and the seed matter. -/
theorem congr (h : g.Running ids) (hobjects : g'.objects = g.objects)
    (hall : g'.allEntityObjects = g.allEntityObjects) (hdict : ∀ t, g'.dictOf t = g.dictOf t)
    (hid : g.entityId ≤ g'.entityId) (hseed : g'.rndSeed = g.rndSeed) : g'.Running ids := by
  refine ⟨⟨fun id => ?_, fun id t => ?_, fun id hid' => ?_⟩, ?_, fun id hid' => ?_⟩
  · rw [hall, hobjects]; exact h.indexed.all id
  · rw [hdict, hobjects]; exact h.indexed.dict id t
  · rw [hobjects] at hid'; exact (h.indexed.fresh id hid').trans hid
  · rw [hseed]; exact h.seeded
  · rw [hobjects]; exact h.alive id hid'

theorem mono {ids' : List ℕ} (h : g.Running ids) (hsub : ids' ⊆ ids) : g.Running ids' :=
  ⟨h.indexed, h.seeded, fun id hid => h.alive id (hsub hid)⟩

/-- An object that is alive is stored. -/
theorem lookup (h : g.Running ids) {id : ℕ} (hid : id ∈ ids) : ∃ e, g.objects.lookup id = some e :=
  Option.isSome_iff_exists.mp (AList.lookup_isSome.mpr (h.alive id hid))

end Running

/-! ## Reading and drawing -/

section Objects

variable {ids : List ℕ}

/-- Reading an object that is alive. -/
theorem ensures_object {id : ℕ} (hid : id ∈ ids) :
    Ensures (Running ids) (object id : Method γ Entity) fun e g =>
      g.Running ids ∧ g.objects.lookup id = some e := by
  intro g hg
  obtain ⟨e, he⟩ := hg.lookup hid
  refine ⟨e, g, ?_, hg, he⟩
  rw [object, get_bind_apply, he]
  rfl

/-- An object is stored and has a type. -/
def HasType (id : ℕ) (t : EntityType) (g : GameObj γ) : Prop :=
  ∃ e, g.objects.lookup id = some e ∧ e.type = t

/-- The state after an object was written back. -/
def put (id : ℕ) (e : Entity) (g : GameObj γ) : GameObj γ :=
  { g with objects := g.objects.replace id e }

/-- The objects after one of them was written back. -/
theorem lookup_put {g : GameObj γ} {id : ℕ} {e e' : Entity} (he : g.objects.lookup id = some e)
    (id' : ℕ) : (g.put id e').objects.lookup id' = if id' = id then some e' else g.objects.lookup id' := by
  rw [put, AList.lookup_replace_eq, he]
  rfl

/-- Writing an object back keeps the types, if its own stays the same. -/
theorem hasType_put {g : GameObj γ} {id : ℕ} {e e' : Entity} (he : g.objects.lookup id = some e)
    (htype : e'.type = e.type) (id' : ℕ) (t : EntityType) :
    (g.put id e').HasType id' t ↔ g.HasType id' t := by
  rw [HasType, HasType, lookup_put he]
  by_cases hid : id' = id
  · subst hid
    rw [if_pos rfl, he]
    simp only [Option.some.injEq, exists_eq_left', htype]
  · rw [if_neg hid]

/-- Writing an object back keeps the index, if its type stays the same. -/
theorem Indexed.put {g : GameObj γ} (h : g.Indexed) {id : ℕ} {e e' : Entity}
    (he : g.objects.lookup id = some e) (htype : e'.type = e.type) : (g.put id e').Indexed := by
  refine ⟨fun id' => ?_, fun id' t => ?_, fun id' hid' => ?_⟩
  · exact (h.all id').trans AList.mem_replace.symm
  · exact (h.dict id' t).trans (hasType_put he htype id' t).symm
  · exact h.fresh id' (AList.mem_replace.mp hid')

/-- Writing an object back keeps the index and the types, if the type stays the same. -/
theorem ensures_putObject {id : ℕ} {e : Entity} (id' : ℕ) (t : EntityType) :
    Ensures (fun g => g.Running ids ∧ g.HasType id e.type ∧ g.HasType id' t)
      (putObject id e : Method γ Unit) fun _ g => g.Running ids ∧ g.HasType id' t := by
  refine Ensures.modify fun g hg => ?_
  obtain ⟨hrun, ⟨e', he', htype⟩, hother⟩ := hg
  refine ⟨⟨hrun.indexed.put he' htype.symm, hrun.seeded, fun id' hid' => ?_⟩, ?_⟩
  · exact AList.mem_replace.mpr (hrun.alive id' hid')
  · exact (hasType_put he' htype.symm id' t).mpr hother

/-- A draw succeeds and lies in its range. -/
theorem ensures_randomInt [PyRandom γ] {lo hi : ℤ} (h : lo ≤ hi) :
    Ensures (Running ids) (randomInt lo hi : Method γ ℤ) fun n g =>
      g.Running ids ∧ lo ≤ n ∧ n ≤ hi := by
  intro g hg
  refine ⟨(PyRandom.randint lo hi g.gen).1, { g with gen := (PyRandom.randint lo hi g.gen).2 }, ?_,
    hg.congr rfl rfl (fun t => by cases t <;> rfl) le_rfl rfl, PyRandom.randint_mem lo hi g.gen h⟩
  rw [randomInt, get_bind_apply, if_neg hg.seeded]
  rfl

/-- A draw from a nonempty list succeeds. -/
theorem ensures_randomList [PyRandom γ] {α : Type} {lst : List α} (h : lst ≠ []) :
    Ensures (Running ids) (randomList lst : Method γ α) fun _ g => g.Running ids := by
  have hlen : (1 : ℤ) ≤ lst.length := by
    have := List.length_pos_of_ne_nil h
    omega
  refine (ensures_randomInt hlen).bind fun pos => ?_
  intro g hg
  have hlt : (pos - 1).toNat < lst.length := by omega
  refine ⟨lst[(pos - 1).toNat], g, ?_, hg.1⟩
  rw [nth, List.getElem?_eq_getElem hlt]
  rfl

/-! ## Creating and destroying -/

/-- Every object has one pid at most, and only players have one. -/
theorem pid?_eq_none {e : Entity} (h : e.type ≠ .player) : e.pid? = none := by
  unfold Entity.type at h
  unfold Entity.pid?
  split
  · simp_all
  · rfl

/-- Who has a pid is a player. -/
theorem type_of_pid? {e : Entity} {pid : Pid} (h : e.pid? = some pid) : e.type = .player := by
  by_contra hne
  rw [pid?_eq_none hne] at h
  cases h

theorem dictOf_store {id : ℕ} {e : Entity} {g : GameObj γ} (t : EntityType) :
    (g.store id e).dictOf t = if e.type = t then (g.dictOf t).insert id else g.dictOf t := by
  cases t <;> rfl

theorem dictOf_unstore {id : ℕ} {e : Entity} {g : GameObj γ} (t : EntityType) :
    (g.unstore id e).dictOf t = if e.type = t then (g.dictOf t).delete id else g.dictOf t := by
  cases t <;> rfl

/-- A new id is not in use. -/
theorem Indexed.notMem {g : GameObj γ} (h : g.Indexed) : g.entityId + 1 ∉ g.objects := fun hmem => by
  have := h.fresh _ hmem
  omega

/-- Storing a new object keeps the index right. -/
theorem Indexed.store {g : GameObj γ} (h : g.Indexed) (e : Entity) :
    (({ g with entityId := g.entityId + 1 } : GameObj γ).store (g.entityId + 1) e).Indexed := by
  refine ⟨fun id => ?_, fun id t => ?_, fun id hid => ?_⟩
  · show id ∈ (g.allEntityObjects.insert (g.entityId + 1)).keys ↔ id ∈ g.objects.insert _ e
    rw [PyDict.mem_keys_insert, AList.mem_insert, h.all]
  · rw [dictOf_store]
    show id ∈ (if e.type = t then (g.dictOf t).insert (g.entityId + 1) else g.dictOf t).keys
      ↔ ∃ e', (g.objects.insert (g.entityId + 1) e).lookup id = some e' ∧ e'.type = t
    by_cases hid : id = g.entityId + 1
    · subst hid
      have hout : g.entityId + 1 ∉ (g.dictOf t).keys := fun hmem => by
        obtain ⟨e', he', -⟩ := (h.dict _ _).mp hmem
        exact h.notMem (AList.lookup_isSome.mp (by rw [he']; rfl))
      rw [AList.lookup_insert]
      by_cases ht : e.type = t
      · simp [ht]
      · simp [ht, hout]
    · rw [AList.lookup_insert_ne hid, ← h.dict]
      split
      · simp [hid]
      · rfl
  · rcases (AList.mem_insert _).mp hid with rfl | hid
    · exact le_rfl
    · exact (h.fresh id hid).trans (Nat.le_succ _)

theorem Running.store {g : GameObj γ} (h : g.Running ids) (e : Entity) :
    (({ g with entityId := g.entityId + 1 } : GameObj γ).store (g.entityId + 1) e).Running ids :=
  ⟨h.indexed.store e, h.seeded, fun id hid => (AList.mem_insert _).mpr (Or.inr (h.alive id hid))⟩

/-- Creating an entity keeps the index right, if its constructor does not raise. -/
theorem ensures_createEntity {init : Method γ Entity}
    (h : Ensures (Running ids) init fun _ g => g.Running ids) :
    Ensures (Running ids) (createEntity init) fun _ g => g.Running ids := by
  refine h.bind fun obj => ?_
  intro g hg
  exact ⟨(), _, rfl, hg.store obj⟩

/-- Taking an object out keeps the index right. -/
theorem Indexed.unstore {g : GameObj γ} {id : ℕ} {e : Entity} (h : g.Indexed)
    (he : g.objects.lookup id = some e) : (g.unstore id e).Indexed := by
  refine ⟨fun id' => ?_, fun id' t => ?_, fun id' hid' => ?_⟩
  · show id' ∈ (g.allEntityObjects.delete id).keys ↔ id' ∈ g.objects.erase id
    rw [PyDict.mem_keys_delete, AList.mem_erase, h.all]
  · rw [dictOf_unstore]
    show id' ∈ (if e.type = t then (g.dictOf t).delete id else g.dictOf t).keys
      ↔ ∃ e', (g.objects.erase id).lookup id' = some e' ∧ e'.type = t
    by_cases hid' : id' = id
    · subst hid'
      rw [AList.lookup_erase]
      by_cases ht : e.type = t
      · simp [ht]
      · have hout : id' ∉ (g.dictOf t).keys := fun hmem => by
          obtain ⟨e', he', ht'⟩ := (h.dict _ _).mp hmem
          rw [he] at he'
          exact ht (Option.some.inj he' ▸ ht')
        simp [ht, hout]
    · rw [AList.lookup_erase_ne hid', ← h.dict]
      split
      · simp [hid']
      · rfl
  · exact h.fresh id' (AList.mem_erase.mp hid').2

theorem Running.unstore {g : GameObj γ} {id : ℕ} {e : Entity} (h : g.Running (id :: ids))
    (he : g.objects.lookup id = some e) (hid : id ∉ ids) : (g.unstore id e).Running ids := by
  refine ⟨h.indexed.unstore he, h.seeded, fun id' hid' => ?_⟩
  refine AList.mem_erase.mpr ⟨?_, h.alive id' (List.mem_cons_of_mem _ hid')⟩
  rintro rfl
  exact hid hid'

/-- **Destroying an object that is alive does not raise.** -/
theorem ensures_destroyEntity {id : ℕ} (hid : id ∉ ids) :
    Ensures (Running (id :: ids)) (destroyEntity id : Method γ Unit) fun _ g => g.Running ids := by
  refine (ensures_object List.mem_cons_self).bind fun e => ?_
  intro g hg
  obtain ⟨hrun, he⟩ := hg
  have hdict : id ∈ (g.dictOf e.type).keys := (hrun.indexed.dict id e.type).mpr ⟨e, he, rfl⟩
  have hall : id ∈ g.allEntityObjects.keys :=
    (hrun.indexed.all id).mpr (hrun.alive id List.mem_cons_self)
  refine ⟨(), g.unstore id e, ?_, hrun.unstore he hid⟩
  rw [get_bind_apply, if_pos ⟨hdict, hall⟩]
  rfl

/-! ## Updating -/

theorem ensures_draw [PyRandom γ] {lo hi : ℤ} (h : lo ≤ hi) :
    Ensures (Running ids) (randomInt lo hi : Method γ ℤ) fun _ g => g.Running ids :=
  (ensures_randomInt h).mono (fun _ hg => hg) fun _ _ hg => hg.1

theorem ensures_initEnemy [PyRandom γ] :
    Ensures (Running ids) (initEnemy : Method γ Entity) fun _ g => g.Running ids := by
  refine (ensures_draw (by decide)).bind fun _ => ?_
  refine (ensures_draw (by decide)).bind fun _ => ?_
  refine (ensures_randomList (by decide)).bind fun _ => ?_
  refine (ensures_draw (by decide)).bind fun _ => ?_
  refine (ensures_draw (by decide)).bind fun _ => ?_
  refine (ensures_draw (by decide)).bind fun _ => ?_
  exact Ensures.pure fun _ hg => hg

theorem ensures_reward (obj : Entity) :
    Ensures (Running ids) (reward obj : Method γ Unit) fun _ g => g.Running ids := by
  unfold reward
  split
  · split
    · exact Ensures.modify fun g hg => hg.congr rfl rfl (fun t => by cases t <;> rfl) le_rfl rfl
    · exact Ensures.pure fun _ hg => hg
  · exact Ensures.pure fun _ hg => hg

/-- A new bullet changes no object that is there. -/
theorem ensures_shoot (obj : Entity) (ackLoopCnt : ℕ) {id : ℕ} {t : EntityType} :
    Ensures (fun g => g.Running ids ∧ g.HasType id t) (shoot obj ackLoopCnt : Method γ Unit)
      fun _ g => g.Running ids ∧ g.HasType id t := by
  unfold shoot
  split
  · intro g hg
    obtain ⟨hrun, e, he, ht⟩ := hg
    refine ⟨(), _, rfl, hrun.store _, e, ?_, ht⟩
    have hmem : id ∈ g.objects := AList.lookup_isSome.mp (by rw [he]; rfl)
    have hne : id ≠ g.entityId + 1 := by
      have := hrun.indexed.fresh id hmem
      omega
    exact (AList.lookup_insert_ne hne).trans he
  · exact Ensures.pure fun _ hg => hg

theorem ensures_onUpdate {id : ℕ} {obj : Entity} :
    Ensures (fun g => g.Running ids ∧ g.HasType id obj.type) (onUpdate id obj : Method γ Unit)
      fun _ g => g.Running ids := by
  unfold onUpdate
  split
  · rename_i pid name ackLoopCnt hbody
    refine (ensures_shoot obj ackLoopCnt).bind fun _ => ?_
    refine (ensures_putObject id obj.type).mono (fun g hg => ⟨hg.1, ?_, hg.2⟩)
      fun _ _ hg => hg.1
    have htype : obj.type = .player := by rw [Entity.type, hbody]
    rw [htype] at hg
    exact hg.2
  · exact Ensures.pure fun _ hg => hg.1

/-- **Updating an object that is alive does not raise**, and no other object dies. -/
theorem ensures_update {id : ℕ} (hid : id ∉ ids) :
    Ensures (Running (id :: ids)) (update id : Method γ Unit) fun _ g => g.Running ids := by
  refine (ensures_object List.mem_cons_self).bind fun obj => ?_
  split
  · refine Ensures.mono (P := Running (id :: ids)) ?_ (fun _ hg => hg.1) fun _ _ hg => hg
    exact (ensures_reward obj).bind fun _ => ensures_destroyEntity hid
  · refine Ensures.mono (P := fun g => g.Running ids ∧ g.HasType id obj.type) ?_
      (fun g hg => ⟨hg.1.mono (List.subset_cons_self _ _), obj, hg.2, rfl⟩) fun _ _ hg => hg
    refine Ensures.bind (Q := fun _ g => g.Running ids ∧ g.HasType id obj.advance.type) ?_
      fun _ => ensures_onUpdate
    refine (ensures_putObject id obj.advance.type).mono (fun g hg => ?_)
      fun _ _ hg => hg
    have htype := obj.type_advance
    exact ⟨hg.1, htype ▸ hg.2, htype ▸ hg.2⟩

/-- A collision of two objects that are alive does not raise, and nothing dies in it. -/
theorem ensures_collidePair {id₁ id₂ : ℕ} (h₁ : id₁ ∈ ids) (h₂ : id₂ ∈ ids) :
    Ensures (Running ids) (collidePair id₁ id₂ : Method γ Unit) fun _ g => g.Running ids := by
  refine (ensures_object h₁).bind fun obj₁ => ?_
  intro g hg
  obtain ⟨hrun, he₁⟩ := hg
  obtain ⟨obj₂, he₂⟩ := hrun.lookup h₂
  have hread : (object id₂ : Method γ Entity) g = .ok (obj₂, g) := by
    rw [object, get_bind_apply, he₂]
    rfl
  rw [bind_of_ok hread]
  split
  · have hput : Ensures (fun g => g.Running ids ∧ g.HasType id₁ obj₁.onHit.type
        ∧ g.HasType id₂ obj₂.onHit.type) (hitBoth id₁ id₂ obj₁ obj₂ : Method γ Unit)
        fun _ g => g.Running ids := by
      refine (ensures_putObject id₂ obj₂.onHit.type).bind fun _ => ?_
      exact (ensures_putObject id₂ obj₂.onHit.type).mono
        (fun g hg => ⟨hg.1, hg.2, hg.2⟩) fun _ _ hg => hg.1
    exact hput g ⟨hrun, ⟨obj₁, he₁, rfl⟩, ⟨obj₂, he₂, rfl⟩⟩
  · exact ⟨(), g, rfl, hrun⟩

section Frame

variable [PyRandom γ] [DictOrder ℕ]

omit [PyRandom γ] in
/-- The objects of a dict are alive. -/
theorem Running.items {g : GameObj γ} (h : g.Running ids) {d : PyDict ℕ}
    (hd : ∀ id ∈ d.keys, id ∈ g.objects) : g.Running (ids ++ d.items) := by
  refine ⟨h.indexed, h.seeded, fun id hid => ?_⟩
  rcases List.mem_append.mp hid with hid | hid
  · exact h.alive id hid
  · exact hd id (PyDict.mem_items.mp hid)

omit [PyRandom γ] [DictOrder ℕ] in
/-- The objects of a type are alive. -/
theorem Indexed.alive_dictOf {g : GameObj γ} (h : g.Indexed) (t : EntityType) :
    ∀ id ∈ (g.dictOf t).keys, id ∈ g.objects := fun id hid => by
  obtain ⟨e, he, -⟩ := (h.dict id t).mp hid
  exact AList.lookup_isSome.mp (by rw [he]; rfl)

omit [PyRandom γ] in
/-- A collision loop does not raise. The outer copy stays alive: nothing dies in the loop. -/
theorem ensures_collide (t t' : EntityType) :
    Ensures (Running []) (collide (fun g : GameObj γ => g.dictOf t) fun g => g.dictOf t')
      fun _ g => g.Running [] := by
  refine Ensures.get_bind fun g hg => ?_
  refine Ensures.mono (P := Running (g.dictOf t).items) ?_
    (fun _ h => h ▸ hg.items (hg.indexed.alive_dictOf t)) fun _ _ h => h
  refine Ensures.forM (I := Running) (fun id₁ outer => ?_) (g.dictOf t).items
  refine Ensures.get_bind fun g hg => ?_
  have hloop : Ensures (Running (id₁ :: outer ++ (g.dictOf t').items))
      ((g.dictOf t').items.forM fun id₂ => collidePair id₁ id₂)
      fun _ (g : GameObj γ) => g.Running (id₁ :: outer ++ []) := by
    refine Ensures.forM (I := fun inner (g : GameObj γ) => g.Running (id₁ :: outer ++ inner))
      (fun id₂ inner => ?_) _
    refine (ensures_collidePair (by simp) (by simp)).mono (fun _ h => h) fun _ _ h => h.mono ?_
    intro id hid
    simp only [List.cons_append, List.mem_cons, List.mem_append] at hid ⊢
    tauto
  refine hloop.mono (fun _ h => h ▸ hg.items (hg.indexed.alive_dictOf t')) fun _ _ h => h.mono ?_
  intro id hid
  simp [hid]

omit [DictOrder ℕ] in
theorem ensures_spawnEnemy :
    Ensures (Running ids) (spawnEnemy : Method γ Unit) fun _ g => g.Running ids := by
  refine (ensures_draw (by decide)).bind fun n => ?_
  split
  · exact ensures_createEntity ensures_initEnemy
  · exact Ensures.pure fun _ hg => hg

omit [PyRandom γ] in
/-- The update loop does not raise: an object that was in the copy and has not had its turn is
still alive. -/
theorem ensures_updateAll :
    Ensures (Running []) (updateAll : Method γ Unit) fun _ g => g.Running [] := by
  refine Ensures.get_bind fun g hg => ?_
  have hstart : g.Running g.allEntityObjects.items :=
    hg.items fun id hid => (hg.indexed.all id).mp hid
  have hloop : Ensures (fun g' : GameObj γ => g'.Running g.allEntityObjects.items
      ∧ g.allEntityObjects.items.Nodup) (g.allEntityObjects.items.forM update)
      fun _ (g' : GameObj γ) => g'.Running [] ∧ List.Nodup ([] : List ℕ) := by
    refine Ensures.forM (I := fun ids (g' : GameObj γ) => g'.Running ids ∧ ids.Nodup) (fun id ids => ?_) _
    intro g hg
    obtain ⟨hid, hnodup⟩ := List.nodup_cons.mp hg.2
    obtain ⟨a, g', hrun, hg'⟩ := ensures_update hid g hg.1
    exact ⟨a, g', hrun, hg', hnodup⟩
  refine hloop.mono (fun g' h => ?_) fun _ _ h => h.1
  subst h
  exact ⟨hstart, PyDict.nodup_items _⟩

/-- **`update_ctrl_once` does not raise.** -/
theorem ensures_updateCtrlOnce :
    Ensures (Running []) (updateCtrlOnce : Method γ Unit) fun _ g => g.Running [] := by
  refine ensures_spawnEnemy.bind fun _ => ?_
  refine (ensures_collide .bullet .enemy).bind fun _ => ?_
  refine (ensures_collide .enemy .player).bind fun _ => ?_
  exact ensures_updateAll

end Frame

end Objects

end FrameSync.Client.GameObj
