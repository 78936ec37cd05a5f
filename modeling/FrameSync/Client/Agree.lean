import FrameSync.Client.GameObj

/-! # What the simulation does not depend on

Each client knows its own pid and keeps its own player in `m_MainRole`. `SameSim` compares two
`CGameObj`s without these two fields, and every method of the simulation, run on two objects that
are the same in this sense, raises on both or leaves the same on both. -/

namespace FrameSync.Client.GameObj

open Program

variable {γ : Type}

/-- The same simulation state: everything but `m_MainRPid` and `m_MainRole`. -/
def SameSim (g g' : GameObj γ) : Prop := g.toSim = g'.toSim

/-- A method that reads the object, but not the two fields. -/
theorem agrees_get {α : Type} {f : GameObj γ → Method γ α} (hf : ∀ S p r p' r', f ⟨S, p, r⟩ = f ⟨S, p', r'⟩)
    (h : ∀ g, Agrees SameSim (f g)) : Agrees SameSim (get >>= f) := by
  refine Agrees.get_bind fun g g' hsame => ?_
  obtain ⟨S, p, r⟩ := g
  obtain ⟨S', p', r'⟩ := g'
  obtain rfl : S = S' := hsame
  rw [hf S p r p' r']
  exact h ⟨S, p', r'⟩ _ _ rfl

/-- A change of the object that does not depend on the two fields. -/
theorem agrees_modify {f : GameObj γ → GameObj γ}
    (hf : ∀ S p r p' r', (f ⟨S, p, r⟩).toSim = (f ⟨S, p', r'⟩).toSim) :
    Agrees SameSim (modify f : Method γ PUnit) := by
  refine Agrees.modify fun g g' hsame => ?_
  obtain ⟨S, p, r⟩ := g
  obtain ⟨S', p', r'⟩ := g'
  obtain rfl : S = S' := hsame
  exact hf S p r p' r'

theorem agrees_key {α : Type} (v : Option α) : Agrees SameSim (key v : Method γ α) := by
  cases v with
  | none => exact Agrees.throw _
  | some a => exact Agrees.pure a

theorem agrees_object (id : ℕ) : Agrees SameSim (object id : Method γ Entity) := by
  refine agrees_get (fun _ _ _ _ _ => rfl) fun g => ?_
  split
  · exact Agrees.pure _
  · exact Agrees.throw _

theorem agrees_putObject (id : ℕ) (e : Entity) : Agrees SameSim (putObject id e : Method γ Unit) :=
  agrees_modify fun _ _ _ _ _ => rfl

section Random

variable [PyRandom γ]

theorem agrees_randomInt (lo hi : ℤ) : Agrees SameSim (randomInt lo hi : Method γ ℤ) := by
  intro g g' hsame
  obtain ⟨S, p, r⟩ := g
  obtain ⟨S', p', r'⟩ := g'
  obtain rfl : S = S' := hsame
  simp only [randomInt, get_bind_apply]
  split
  · exact .error
  · exact .ok rfl

theorem agrees_randomList {α : Type} (lst : List α) :
    Agrees SameSim (randomList lst : Method γ α) := by
  refine (agrees_randomInt _ _).bind fun pos => ?_
  unfold nth
  split
  · exact Agrees.pure _
  · exact Agrees.throw _

theorem agrees_initEnemy : Agrees SameSim (initEnemy : Method γ Entity) := by
  refine (agrees_randomInt _ _).bind fun _ => ?_
  refine (agrees_randomInt _ _).bind fun _ => ?_
  refine (agrees_randomList _).bind fun _ => ?_
  refine (agrees_randomInt _ _).bind fun _ => ?_
  refine (agrees_randomInt _ _).bind fun _ => ?_
  refine (agrees_randomInt _ _).bind fun _ => ?_
  exact Agrees.pure _

end Random

theorem agrees_newID : Agrees SameSim (newID : Method γ ℕ) := by
  refine (agrees_modify fun _ _ _ _ _ => rfl).bind fun _ => ?_
  exact agrees_get (fun _ _ _ _ _ => rfl) fun g => Agrees.pure _

theorem agrees_initPlayer (pid : Pid) (args : ActionEnter) :
    Agrees SameSim (initPlayer pid args : Method γ Entity) := by
  refine (agrees_key _).bind fun name => ?_
  refine (agrees_key _).bind fun color => ?_
  refine (agrees_key _).bind fun r => ?_
  refine (agrees_key _).bind fun g => ?_
  refine (agrees_key _).bind fun b => ?_
  refine (agrees_key _).bind fun pos => ?_
  refine (agrees_key _).bind fun x => ?_
  refine (agrees_key _).bind fun z => ?_
  exact Agrees.pure _

/-- Creating an entity sets the main role on the client it belongs to, and nothing else differs. -/
theorem agrees_createEntity {init : Method γ Entity} (h : Agrees SameSim init) :
    Agrees SameSim (createEntity init) := by
  refine h.bind fun obj => ?_
  refine agrees_newID.bind fun id => ?_
  exact agrees_modify fun _ _ _ _ _ => rfl

/-- Destroying an entity clears the main role on the client it belongs to. -/
theorem agrees_destroyEntity (id : ℕ) : Agrees SameSim (destroyEntity id : Method γ Unit) := by
  refine (agrees_object id).bind fun obj => ?_
  refine agrees_get (fun S p r p' r' => ?_) fun g => ?_
  · cases obj.type <;> rfl
  · exact Agrees.ite (agrees_modify fun _ _ _ _ _ => rfl) (Agrees.throw _)

theorem agrees_reward (obj : Entity) : Agrees SameSim (reward obj : Method γ Unit) := by
  unfold reward
  split
  · exact Agrees.ite (agrees_modify fun _ _ _ _ _ => rfl) (Agrees.pure _)
  · exact Agrees.pure _

theorem agrees_onUpdate (id : ℕ) (obj : Entity) : Agrees SameSim (onUpdate id obj : Method γ Unit) := by
  unfold onUpdate
  split
  · refine Agrees.bind ?_ fun _ => agrees_putObject _ _
    exact Agrees.ite (agrees_createEntity (Agrees.pure _)) (Agrees.pure _)
  · exact Agrees.pure _

theorem agrees_update (id : ℕ) : Agrees SameSim (update id : Method γ Unit) := by
  refine (agrees_object id).bind fun obj => ?_
  split
  · exact (agrees_reward obj).bind fun _ => agrees_destroyEntity id
  · exact (agrees_putObject _ _).bind fun _ => agrees_onUpdate _ _

theorem agrees_collidePair (id₁ id₂ : ℕ) : Agrees SameSim (collidePair id₁ id₂ : Method γ Unit) := by
  refine (agrees_object id₁).bind fun obj₁ => ?_
  refine (agrees_object id₂).bind fun obj₂ => ?_
  split
  · exact (agrees_putObject _ _).bind fun _ => agrees_putObject _ _
  · exact Agrees.pure _

section Frame

variable [DictOrder ℕ]

theorem agrees_collide {outer inner : GameObj γ → PyDict ℕ}
    (houter : ∀ S p r p' r', outer ⟨S, p, r⟩ = outer ⟨S, p', r'⟩)
    (hinner : ∀ S p r p' r', inner ⟨S, p, r⟩ = inner ⟨S, p', r'⟩) :
    Agrees SameSim (collide outer inner : Method γ Unit) := by
  refine agrees_get (fun S p r p' r' => by rw [houter S p r p' r']) fun g => ?_
  refine Agrees.forM (fun id₁ => ?_) _
  refine agrees_get (fun S p r p' r' => by rw [hinner S p r p' r']) fun g => ?_
  exact Agrees.forM (fun id₂ => agrees_collidePair id₁ id₂) _

theorem agrees_updateAll : Agrees SameSim (updateAll : Method γ Unit) :=
  agrees_get (fun _ _ _ _ _ => rfl) fun _ => Agrees.forM agrees_update _

theorem agrees_dropPlayer (pid : Pid) : Agrees SameSim (dropPlayer pid : Method γ Unit) := by
  refine agrees_get (fun _ _ _ _ _ => rfl) fun g => ?_
  split
  · exact agrees_destroyEntity _
  · exact Agrees.pure _

theorem agrees_handle {α : Type} (pid : Pid) {read : Method γ α} (h : Agrees SameSim read)
    (handler : α → Entity → Entity) : Agrees SameSim (handle pid read handler) := by
  refine agrees_get (fun _ _ _ _ _ => rfl) fun g => ?_
  split
  · refine (agrees_object _).bind fun obj => ?_
    exact h.bind fun a => agrees_putObject _ _
  · exact Agrees.pure _

theorem agrees_act (ctrl : CtrlInfo) : Agrees SameSim (act ctrl : Method γ Unit) := by
  refine (agrees_key _).bind fun pid => ?_
  refine (agrees_key _).bind fun action => ?_
  refine Agrees.ite ?_ (Agrees.ite (agrees_dropPlayer _) (Agrees.ite ?_ (Agrees.ite ?_ (Agrees.pure _))))
  · refine (agrees_dropPlayer _).bind fun _ => ?_
    refine (agrees_key _).bind fun args => ?_
    exact agrees_createEntity (agrees_initPlayer _ _)
  · refine agrees_handle _ ?_ _
    exact (agrees_key _).bind fun info => agrees_key _
  · refine agrees_handle _ ?_ _
    refine (agrees_key _).bind fun info => ?_
    refine (agrees_key _).bind fun dir => ?_
    exact (agrees_key _).bind fun status => Agrees.pure _

theorem agrees_clearScreen : Agrees SameSim (clearScreen : Method γ Unit) := by
  refine agrees_get (fun _ _ _ _ _ => rfl) fun g => ?_
  refine (Agrees.forM agrees_destroyEntity _).bind fun _ => ?_
  exact agrees_get (fun _ _ _ _ _ => rfl) fun g => Agrees.forM agrees_destroyEntity _

variable [PyRandom γ]

theorem agrees_updateCtrlOnce : Agrees SameSim (updateCtrlOnce : Method γ Unit) := by
  refine Agrees.bind ?_ fun _ => ?_
  · refine (agrees_randomInt _ _).bind fun n => ?_
    exact Agrees.ite (agrees_createEntity agrees_initEnemy) (Agrees.pure _)
  refine (agrees_collide (fun _ _ _ _ _ => rfl) fun _ _ _ _ _ => rfl).bind fun _ => ?_
  refine (agrees_collide (fun _ _ _ _ _ => rfl) fun _ _ _ _ _ => rfl).bind fun _ => ?_
  exact agrees_updateAll

/-- **A frame does the same on every client**: `update_frame` does not depend on whose client it
is. -/
theorem agrees_updateFrame (msg : FrameInfo) : Agrees SameSim (updateFrame msg : Method γ Unit) := by
  refine (agrees_modify fun _ _ _ _ _ => rfl).bind fun _ => ?_
  refine agrees_updateCtrlOnce.bind fun _ => ?_
  exact Agrees.forM (fun ctrl => (agrees_act ctrl).bind fun _ => agrees_updateCtrlOnce) _

end Frame

end FrameSync.Client.GameObj
