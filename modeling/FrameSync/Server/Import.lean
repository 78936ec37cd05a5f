import Mathlib.Data.Finset.Card
import Mathlib.Data.Fintype.Card
import Mathlib.Tactic.Common

/-! # Importing modules

`import` and `importall` of `reload.lua`. A module is registered before its file runs, so that
modules may import one another, and stays registered when its file cannot be loaded or raises. The
model runs the files of a finite graph of modules, as far as they import, assign globals and raise,
with a bound on the depth of the imports that is never reached (`importN_eq_some`).

`meets_iff`: an import does what it should exactly if its module was not left behind by an import
that raised. -/

namespace FrameSync.Server

variable {α κ : Type}

/-- What a file does. -/
inductive Stmt (α κ : Type)
  /-- A global of the module is assigned. -/
  | assign (k : κ)
  /-- `import` -/
  | doImport (modname : α)
  /-- `importall` into the module that is loaded. -/
  | doImportall (modname : α)
  /-- An error is raised. -/
  | raise
  deriving Repr, DecidableEq

/-- A table in `Modules`. -/
structure Module (κ : Type) where
  /-- The keys of the table. -/
  keys : List κ
  /-- The file has run to its end. The source keeps no record of that. -/
  completed : Bool
  deriving Repr, DecidableEq

/-- The local `Modules` of `reload.lua`. -/
structure Loader (α κ : Type) where
  /-- `Modules` -/
  modules : α → Option (Module κ)

/-- How a call ends. -/
inductive Ending
  /-- It returns. -/
  | returned
  /-- It raises. -/
  | raised
  deriving Repr, DecidableEq

/-- For each module what `loadfile` makes of its file, if it loads. -/
abbrev Files (α κ : Type) := α → Option (List (Stmt α κ))

namespace Loader

/-- No module is loaded. -/
def init : Loader α κ := ⟨fun _ => none⟩

/-- `Modules[modname]` is not nil. -/
def Registered (s : Loader α κ) (m : α) : Prop := s.modules m ≠ none

/-- The file of the module has run to its end. -/
def Completed (s : Loader α κ) (m : α) : Prop :=
  ∃ mod, s.modules m = some mod ∧ mod.completed = true

/-- The module is in `Modules`, and its file has not run to its end. -/
def Abandoned (s : Loader α κ) (m : α) : Prop := s.Registered m ∧ ¬ s.Completed m

instance (s : Loader α κ) (m : α) : Decidable (s.Registered m) :=
  match h : s.modules m with
  | none => .isFalse fun hne => hne h
  | some _ => .isTrue fun heq => Option.some_ne_none _ (h.symm.trans heq)

instance (s : Loader α κ) (m : α) : Decidable (s.Completed m) :=
  match h : s.modules m with
  | none => .isFalse fun ⟨_, hmod, _⟩ => Option.some_ne_none _ (hmod.symm.trans h)
  | some mod =>
      if hc : mod.completed = true then .isTrue ⟨mod, h, hc⟩
      else .isFalse fun ⟨_, hmod, hmc⟩ => hc (Option.some.inj (hmod.symm.trans h) ▸ hmc)

instance (s : Loader α κ) (m : α) : Decidable (s.Abandoned m) := inferInstanceAs (Decidable (_ ∧ _))

variable [DecidableEq α]

/-- Change the table of a module. -/
def update (s : Loader α κ) (m : α) (f : Module κ → Module κ) : Loader α κ :=
  ⟨fun m' => if m' = m then (s.modules m').map f else s.modules m'⟩

/-- `Modules[modname] = newModule` -/
def register (s : Loader α κ) (m : α) : Loader α κ :=
  ⟨fun m' => if m' = m then some ⟨[], false⟩ else s.modules m'⟩

/-- The loop of `importall`: the keys of a module are copied. -/
def copy (s : Loader α κ) (m from_ : α) : Loader α κ :=
  s.update m fun mod => { mod with keys := mod.keys ++ ((s.modules from_).map Module.keys).getD [] }

/-- Run the statements of a file, given what `import` does. -/
def runStmts (imp : α → Loader α κ → Option (Ending × Loader α κ)) (own : α) :
    List (Stmt α κ) → Loader α κ → Option (Ending × Loader α κ)
  | [], s => some (.returned, s.update own fun mod => { mod with completed := true })
  | .assign k :: rest, s =>
      runStmts imp own rest (s.update own fun mod => { mod with keys := mod.keys ++ [k] })
  | .doImport m :: rest, s =>
      match imp m s with
      | some (.returned, s') => runStmts imp own rest s'
      | r => r
  | .doImportall m :: rest, s =>
      match imp m s with
      | some (.returned, s') => runStmts imp own rest (s'.copy own m)
      | r => r
  | .raise :: _, s => some (.raised, s)

/-- `import`, with a bound on the depth. Calling the `nil` that `loadfile` returned raises. -/
def importN (files : Files α κ) : ℕ → α → Loader α κ → Option (Ending × Loader α κ)
  | 0, _, _ => none
  | n + 1, m, s =>
      if s.Registered m then some (.returned, s)
      else
        match files m with
        | none => some (.raised, s.register m)
        | some stmts => runStmts (importN files n) m stmts (s.register m)

/-- `import`: no chain of imports is longer than the number of modules. -/
def importTop [Fintype α] (files : Files α κ) (m : α) (s : Loader α κ) : Ending × Loader α κ :=
  (importN files (Fintype.card α + 1) m s).getD (.raised, s)

/-- `Modules` after some imports, one after another; an error in one does not keep the next from
being made. -/
def imports [Fintype α] (files : Files α κ) (ms : List α) : Loader α κ :=
  ms.foldl (fun s m => (importTop files m s).2) init

/-- What an import should do: it raises, or the file of the module whose table it returns has run to
its end. After an import of the module that raised the file has to run again for that. -/
def Meets [Fintype α] (files : Files α κ) (m : α) (s : Loader α κ) : Prop :=
  (importTop files m s).1 = .returned → (importTop files m s).2.Completed m

/-! ## The table of modules -/

section Table

variable {s : Loader α κ} {m x : α} {f : Module κ → Module κ}

theorem registered_register : (s.register m).Registered x ↔ x = m ∨ s.Registered x := by
  unfold Registered register
  dsimp only
  split
  · rename_i hx
    exact iff_of_true (Option.some_ne_none _) (Or.inl hx)
  · rename_i hx
    exact ⟨Or.inr, fun h => h.resolve_left hx⟩

theorem completed_register : (s.register m).Completed x ↔ x ≠ m ∧ s.Completed x := by
  unfold Completed register
  dsimp only
  split
  · rename_i hx
    refine iff_of_false ?_ fun h => h.1 hx
    rintro ⟨mod, hmod, hc⟩
    obtain rfl := Option.some.inj hmod
    exact Bool.false_ne_true hc
  · rename_i hx
    exact ⟨fun h => ⟨hx, h⟩, fun h => h.2⟩

@[simp] theorem registered_update : (s.update m f).Registered x ↔ s.Registered x := by
  unfold Registered update
  dsimp only
  split
  · rename_i hx
    rw [hx, Ne, Option.map_eq_none_iff]
  · rfl

/-- A change that leaves the record of the file alone. -/
theorem completed_update (hf : ∀ mod, (f mod).completed = mod.completed) :
    (s.update m f).Completed x ↔ s.Completed x := by
  unfold Completed update
  dsimp only
  split
  · rename_i hx
    subst hx
    constructor
    · rintro ⟨mod, hmod, hc⟩
      obtain ⟨mod', hmod', rfl⟩ := Option.map_eq_some_iff.mp hmod
      exact ⟨mod', hmod', hf mod' ▸ hc⟩
    · rintro ⟨mod, hmod, hc⟩
      exact ⟨f mod, Option.map_eq_some_iff.mpr ⟨mod, hmod, rfl⟩, (hf mod).trans hc⟩
  · rfl

/-- The end of a file. -/
theorem completed_finish (h : s.Registered m) :
    (s.update m fun mod => { mod with completed := true }).Completed x ↔ x = m ∨ s.Completed x := by
  unfold Completed update
  dsimp only
  split
  · rename_i hx
    subst hx
    obtain ⟨mod, hmod⟩ := Option.ne_none_iff_exists'.mp h
    exact iff_of_true ⟨_, Option.map_eq_some_iff.mpr ⟨mod, hmod, rfl⟩, rfl⟩ (Or.inl rfl)
  · rename_i hx
    exact ⟨Or.inr, fun h => h.resolve_left hx⟩

end Table

/-! ## What an import does to it -/

/-- What is known after an import of `m`. -/
structure Imported (s : Loader α κ) (m : α) (e : Ending) (s' : Loader α κ) : Prop where
  /-- Modules stay registered. -/
  registered : ∀ x, s.Registered x → s'.Registered x
  /-- A file does not run again. -/
  completed : ∀ x, s.Registered x → (s'.Completed x ↔ s.Completed x)
  /-- An import that returns completes every module that it registers. -/
  new : e = .returned → ∀ x, s'.Registered x → ¬ s.Registered x → s'.Completed x
  /-- The module itself is registered. -/
  own : s'.Registered m
  /-- An import that raises does not complete it. -/
  raised : e = .raised → ¬ s'.Completed m

/-- What is known after the file of `own` ran, from a state in which it is registered. -/
structure Ran (s : Loader α κ) (own : α) (e : Ending) (s' : Loader α κ) : Prop where
  /-- Modules stay registered. -/
  registered : ∀ x, s.Registered x → s'.Registered x
  /-- The files of the others do not run again. -/
  completed : ∀ x, x ≠ own → s.Registered x → (s'.Completed x ↔ s.Completed x)
  /-- Every module that was registered is completed. -/
  new : e = .returned → ∀ x, s'.Registered x → ¬ s.Registered x → s'.Completed x
  /-- The file has run to its end, if it did not raise. -/
  returned : e = .returned → s'.Completed own
  /-- Otherwise it has not. -/
  raised : e = .raised → (s'.Completed own ↔ s.Completed own)

/-- A change of a table before the file goes on. -/
theorem Ran.of_update {s s' : Loader α κ} {own m : α} {e : Ending} {f : Module κ → Module κ}
    (hf : ∀ mod, (f mod).completed = mod.completed) (h : Ran (s.update m f) own e s') :
    Ran s own e s' where
  registered := fun x hx => h.registered x (registered_update.mpr hx)
  completed := fun x hne hx =>
    (h.completed x hne (registered_update.mpr hx)).trans (completed_update hf)
  new := fun he x hx hnew => h.new he x hx fun hreg => hnew (registered_update.mp hreg)
  returned := h.returned
  raised := fun he => (h.raised he).trans (completed_update hf)

omit [DecidableEq α] in
/-- An import that returned, before the file goes on. -/
theorem Imported.ran {s s₁ s' : Loader α κ} {own m : α} {e : Ending} (hself : s.Registered own)
    (h : Imported s m .returned s₁) (h' : Ran s₁ own e s') : Ran s own e s' where
  registered := fun x hx => h'.registered x (h.registered x hx)
  completed := fun x hne hx =>
    (h'.completed x hne (h.registered x hx)).trans (h.completed x hx)
  new := by
    intro he x hx hnew
    by_cases hreg : s₁.Registered x
    · have hne : x ≠ own := by
        rintro rfl
        exact hnew hself
      exact (h'.completed x hne hreg).mpr (h.new rfl x hreg hnew)
    · exact h'.new he x hx hreg
  returned := h'.returned
  raised := fun he => (h'.raised he).trans (h.completed own hself)

omit [DecidableEq α] in
/-- An import that raised. -/
theorem Imported.ran_raised {s s' : Loader α κ} {own m : α} (hself : s.Registered own)
    (h : Imported s m .raised s') : Ran s own .raised s' where
  registered := h.registered
  completed := fun x _ hx => h.completed x hx
  new := fun he => absurd he (by decide)
  returned := fun he => absurd he (by decide)
  raised := fun _ => h.completed own hself

omit [DecidableEq α] in
/-- An import inside a file, and what the file does with `next` after it, if it returns. -/
theorem ran_import {imp : α → Loader α κ → Option (Ending × Loader α κ)}
    (himp : ∀ m s e s', imp m s = some (e, s') → Imported s m e s') {own m : α}
    {next : Loader α κ → Option (Ending × Loader α κ)} {s s' : Loader α κ} {e : Ending}
    (hself : s.Registered own)
    (hnext : ∀ s₁, s₁.Registered own → next s₁ = some (e, s') → Ran s₁ own e s')
    (h : (match imp m s with
      | some (.returned, s₁) => next s₁
      | r => r) = some (e, s')) : Ran s own e s' := by
  cases hm : imp m s with
  | none =>
      simp only [hm] at h
      cases h
  | some r =>
      obtain ⟨e₁, s₁⟩ := r
      have himported := himp m s e₁ s₁ hm
      cases e₁ with
      | returned =>
          simp only [hm] at h
          exact himported.ran hself (hnext s₁ (himported.registered own hself) h)
      | raised =>
          simp only [hm, Option.some.injEq, Prod.mk.injEq] at h
          obtain ⟨rfl, rfl⟩ := h
          exact himported.ran_raised hself

/-- **The file of a module**, if imports are as they should be. -/
theorem ran_runStmts {imp : α → Loader α κ → Option (Ending × Loader α κ)}
    (himp : ∀ m s e s', imp m s = some (e, s') → Imported s m e s') {own : α}
    {stmts : List (Stmt α κ)} {s s' : Loader α κ} {e : Ending} (hself : s.Registered own)
    (h : runStmts imp own stmts s = some (e, s')) : Ran s own e s' := by
  induction stmts generalizing s with
  | nil =>
      -- the end of the file completes the module
      obtain ⟨rfl, rfl⟩ := Prod.mk.inj (Option.some.inj h)
      refine ⟨fun x hx => registered_update.mpr hx, fun x hne hx => ?_, fun _ x hx hnew => ?_,
        fun _ => (completed_finish hself).mpr (Or.inl rfl), fun he => absurd he (by decide)⟩
      · rw [completed_finish hself]
        exact ⟨fun h => h.resolve_left hne, Or.inr⟩
      · exact absurd (registered_update.mp hx) hnew
  | cons stmt rest ih =>
      cases stmt with
      | assign k =>
          refine Ran.of_update ?_ (ih (registered_update.mpr hself) h)
          exact fun _ => rfl
      | raise =>
          obtain ⟨rfl, rfl⟩ := Prod.mk.inj (Option.some.inj h)
          exact ⟨fun x hx => hx, fun x _ _ => Iff.rfl, fun he => absurd he (by decide),
            fun he => absurd he (by decide), fun _ => Iff.rfl⟩
      | doImport m => exact ran_import himp hself (fun s₁ hreg => ih hreg) h
      | doImportall m =>
          refine ran_import himp hself (fun s₁ hreg hrun => ?_) h
          refine Ran.of_update ?_ (ih (registered_update.mpr hreg) hrun)
          exact fun _ => rfl

/-- **What an import does**, in any graph of modules. -/
theorem imported_importN {files : Files α κ} {n : ℕ} {m : α} {s s' : Loader α κ} {e : Ending}
    (h : importN files n m s = some (e, s')) : Imported s m e s' := by
  induction n generalizing m s e s' with
  | zero => cases h
  | succ n ih =>
      rw [importN] at h
      split at h
      · rename_i hreg
        -- a registered module is returned as it is
        obtain ⟨rfl, rfl⟩ := Prod.mk.inj (Option.some.inj h)
        exact ⟨fun x hx => hx, fun x _ => Iff.rfl, fun _ x hx hnew => absurd hx hnew, hreg,
          fun he => absurd he (by decide)⟩
      · rename_i hreg
        -- the module is new, and incomplete until its file has run
        have hne : ∀ x, s.Registered x → x ≠ m := by
          rintro x hx rfl
          exact hreg hx
        have hself : (s.register m).Registered m := registered_register.mpr (Or.inl rfl)
        have hnot : ¬ (s.register m).Completed m := fun h => (completed_register.mp h).1 rfl
        cases hfile : files m with
        | none =>
            -- there is no file: the module stays behind
            rw [hfile] at h
            obtain ⟨rfl, rfl⟩ := Prod.mk.inj (Option.some.inj h)
            refine ⟨fun x hx => registered_register.mpr (Or.inr hx), fun x hx => ?_,
              fun he => absurd he (by decide), hself, fun _ => hnot⟩
            rw [completed_register]
            exact ⟨fun h => h.2, fun h => ⟨hne x hx, h⟩⟩
        | some stmts =>
            rw [hfile] at h
            have hran := ran_runStmts (fun m s e s' => ih) hself h
            refine ⟨fun x hx => hran.registered x (registered_register.mpr (Or.inr hx)),
              fun x hx => ?_, fun he x hx hnew => ?_, hran.registered m hself,
              fun he hc => hnot ((hran.raised he).mp hc)⟩
            · -- what was complete before is what is complete after
              rw [hran.completed x (hne x hx) (registered_register.mpr (Or.inr hx)),
                completed_register]
              exact ⟨fun h => h.2, fun h => ⟨hne x hx, h⟩⟩
            · -- an import that returns completes all it has registered
              by_cases hx' : x = m
              · exact hx' ▸ hran.returned he
              · refine hran.new he x hx fun hreg' => ?_
                exact (registered_register.mp hreg').elim hx' hnew

/-! ## Imports end -/

/-- More depth does not change what a file does. -/
theorem runStmts_mono {imp imp' : α → Loader α κ → Option (Ending × Loader α κ)}
    (himp : ∀ m s r, imp m s = some r → imp' m s = some r) {own : α} {stmts : List (Stmt α κ)}
    {s : Loader α κ} {r : Ending × Loader α κ} (h : runStmts imp own stmts s = some r) :
    runStmts imp' own stmts s = some r := by
  induction stmts generalizing s with
  | nil => exact h
  | cons stmt rest ih =>
      cases stmt with
      | assign k => exact ih h
      | raise => exact h
      | doImport m | doImportall m =>
          cases hm : imp m s with
          | none =>
              simp only [runStmts, hm] at h
              cases h
          | some x =>
              obtain ⟨e₁, s₁⟩ := x
              have hm' := himp m s _ hm
              cases e₁ with
              | returned =>
                  simp only [runStmts, hm] at h
                  simp only [runStmts, hm']
                  exact ih h
              | raised =>
                  simp only [runStmts, hm] at h
                  simp only [runStmts, hm']
                  exact h

theorem importN_mono {files : Files α κ} {n n' : ℕ} {m : α} {s : Loader α κ}
    {r : Ending × Loader α κ} (hn : n ≤ n') (h : importN files n m s = some r) :
    importN files n' m s = some r := by
  induction n generalizing n' m s r with
  | zero => cases h
  | succ n ih =>
      obtain ⟨n', rfl⟩ := Nat.exists_eq_add_of_lt hn
      rw [importN] at h ⊢
      split at h
      · rename_i hreg
        rw [if_pos hreg]
        exact h
      · rename_i hreg
        rw [if_neg hreg]
        cases hfile : files m with
        | none =>
            rw [hfile] at h
            exact h
        | some stmts =>
            rw [hfile] at h
            exact runStmts_mono (fun m s r => ih (Nat.le_add_right n n')) h

section Finite

variable [Fintype α]

/-- The modules that are not registered yet. -/
def unregistered (s : Loader α κ) : Finset α := Finset.univ.filter fun x => ¬ s.Registered x

omit [DecidableEq α] in
theorem card_unregistered_le {s s' : Loader α κ} (h : ∀ x, s.Registered x → s'.Registered x) :
    s'.unregistered.card ≤ s.unregistered.card := by
  refine Finset.card_le_card fun x hx => ?_
  rw [unregistered, Finset.mem_filter] at hx ⊢
  exact ⟨hx.1, fun hreg => hx.2 (h x hreg)⟩

/-- A module that is registered is one less to register. -/
theorem card_unregistered_register {s : Loader α κ} {m : α} (h : ¬ s.Registered m) :
    (s.register m).unregistered.card < s.unregistered.card := by
  refine Finset.card_lt_card (Finset.ssubset_iff_of_subset ?_ |>.mpr ⟨m, ?_, ?_⟩)
  · intro x hx
    rw [unregistered, Finset.mem_filter] at hx ⊢
    exact ⟨hx.1, fun hreg => hx.2 (registered_register.mpr (Or.inr hreg))⟩
  · rw [unregistered, Finset.mem_filter]
    exact ⟨Finset.mem_univ m, h⟩
  · rw [unregistered, Finset.mem_filter]
    exact fun hm => hm.2 (registered_register.mpr (Or.inl rfl))

/-- A file ends, if the imports in it do. -/
theorem exists_runStmts {imp : α → Loader α κ → Option (Ending × Loader α κ)} {n : ℕ}
    (himp : ∀ m s, s.unregistered.card < n →
      ∃ r, imp m s = some r ∧ ∀ x, s.Registered x → r.2.Registered x)
    {own : α} {stmts : List (Stmt α κ)} {s : Loader α κ} (hs : s.unregistered.card < n) :
    ∃ r, runStmts imp own stmts s = some r := by
  induction stmts generalizing s with
  | nil => exact ⟨_, rfl⟩
  | cons stmt rest ih =>
      cases stmt with
      | raise => exact ⟨_, rfl⟩
      | assign k =>
          exact ih (Nat.lt_of_le_of_lt (card_unregistered_le fun x => registered_update.mpr) hs)
      | doImport m =>
          obtain ⟨⟨e₁, s₁⟩, hm, hgrow⟩ := himp m s hs
          simp only [runStmts, hm]
          cases e₁ with
          | raised => exact ⟨_, rfl⟩
          | returned => exact ih (Nat.lt_of_le_of_lt (card_unregistered_le hgrow) hs)
      | doImportall m =>
          obtain ⟨⟨e₁, s₁⟩, hm, hgrow⟩ := himp m s hs
          simp only [runStmts, hm]
          cases e₁ with
          | raised => exact ⟨_, rfl⟩
          | returned =>
              refine ih (Nat.lt_of_le_of_lt (card_unregistered_le fun x hx => ?_) hs)
              exact registered_update.mpr (hgrow x hx)

/-- **An import ends**, within a depth of the modules that are still to register. -/
theorem exists_importN (files : Files α κ) {n : ℕ} (m : α) {s : Loader α κ}
    (hs : s.unregistered.card < n) : ∃ r, importN files n m s = some r := by
  induction n generalizing m s with
  | zero => exact absurd hs (Nat.not_lt_zero _)
  | succ n ih =>
      rw [importN]
      split
      · exact ⟨_, rfl⟩
      · rename_i hreg
        cases files m with
        | none => exact ⟨_, rfl⟩
        | some stmts =>
            refine exists_runStmts (n := n) (fun m s hs => ?_) ?_
            · obtain ⟨⟨e₁, s₁⟩, hm⟩ := ih m hs
              exact ⟨_, hm, (imported_importN hm).registered⟩
            · have hless := card_unregistered_register hreg
              omega

/-- The bound in `importTop` is not reached, and no other gives another result. -/
theorem importN_eq_some (files : Files α κ) (m : α) (s : Loader α κ) {n : ℕ}
    (hn : Fintype.card α < n) : importN files n m s = some (importTop files m s) := by
  have hcard : s.unregistered.card ≤ Fintype.card α := Finset.card_le_univ _
  obtain ⟨r, hr⟩ := exists_importN files m (s := s) (n := Fintype.card α + 1) (by omega)
  rw [importTop, hr]
  exact importN_mono hn hr

/-! ## What is left behind -/

/-- What an import at the top level does. -/
theorem imported_importTop (files : Files α κ) (m : α) (s : Loader α κ) :
    Imported s m (importTop files m s).1 (importTop files m s).2 :=
  imported_importN (importN_eq_some files m s (Nat.lt_succ_self _))

/-- A module that is registered is returned at once. -/
theorem importTop_of_registered {files : Files α κ} {m : α} {s : Loader α κ} (h : s.Registered m) :
    importTop files m s = (.returned, s) := by
  rw [importTop, importN, if_pos h]
  rfl

/-- **An import that raises leaves its module behind.** -/
theorem abandoned_of_raised {files : Files α κ} {m : α} {s : Loader α κ}
    (h : (importTop files m s).1 = .raised) : (importTop files m s).2.Abandoned m :=
  ⟨(imported_importTop files m s).own, (imported_importTop files m s).raised h⟩

/-- It stays so. -/
theorem Abandoned.importTop {files : Files α κ} {m : α} {s : Loader α κ} (h : s.Abandoned m)
    (m' : α) : (Loader.importTop files m' s).2.Abandoned m := by
  have himported := imported_importTop files m' s
  exact ⟨himported.registered m h.1, fun hc => h.2 ((himported.completed m h.1).mp hc)⟩

/-- An import that returns leaves nothing behind. -/
theorem not_abandoned_of_returned {files : Files α κ} {m x : α} {s : Loader α κ}
    (h : (importTop files m s).1 = .returned) (hx : ¬ s.Abandoned x) :
    ¬ (importTop files m s).2.Abandoned x := by
  have himported := imported_importTop files m s
  rintro ⟨hreg, hnot⟩
  by_cases hbefore : s.Registered x
  · refine hx ⟨hbefore, fun hc => hnot ((himported.completed x hbefore).mpr hc)⟩
  · exact hnot (himported.new h x hreg hbefore)

/-- **When an import does what it should.** After any imports, in any finite graph of modules: exactly
if no earlier import has left the module behind, registered and with its file not run to its end. -/
theorem meets_iff (files : Files α κ) (ms : List α) (m : α) :
    Meets files m (imports files ms) ↔ ¬ (imports files ms).Abandoned m := by
  have himported := imported_importTop files m (imports files ms)
  constructor
  · intro h habandoned
    have htop : importTop files m (imports files ms) = (.returned, imports files ms) :=
      importTop_of_registered habandoned.1
    rw [Meets, htop] at h
    exact habandoned.2 (h rfl)
  · intro h hreturned
    by_cases hreg : (imports files ms).Registered m
    · rw [importTop_of_registered hreg]
      by_contra hnot
      exact h ⟨hreg, hnot⟩
    · exact himported.new hreturned m himported.own hreg

end Finite

/-- A module whose file raises after it assigned one of its two globals. -/
def halfFile : Files Unit ℕ := fun _ => some [.assign 0, .raise, .assign 1]

/-- Its import raises, and the next returns the table with one key. -/
theorem half_filled : (importTop halfFile () init).1 = .raised ∧
    (importTop halfFile () (imports halfFile [()])).1 = .returned ∧
      (importTop halfFile () (imports halfFile [()])).2.modules () = some ⟨[0], false⟩ ∧
        ¬ Meets halfFile () (imports halfFile [()]) := by
  refine ⟨by decide, by decide, by decide, ?_⟩
  intro h
  have hcompleted := h (by decide)
  revert hcompleted
  decide

end Loader

end FrameSync.Server
