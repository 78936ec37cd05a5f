import FrameSync.Foundations.LuaPattern

/-! # Splitting strings

`split` and `split_all` of `utils.lua`. The separator is what `str:find` takes, a pattern; `Splits`
says what cutting a string at the matches of a pattern is. `splitAll_joins`: that is what `split_all`
does, and for a separator that stands for itself it undoes joining. -/

namespace FrameSync.Server.Utils

open LuaPattern

/-- `split`. The second value is nil where the separator is not found. -/
def split (str sep : Str) : Except PatternError (Str × Option Str) := do
  match ← find str sep with
  | some (s, e) => pure (subTo str (s - 1), some (subFrom str (e + 1)))
  | none => pure (str, none)

/-- The loop of `split_all`, within a number of rounds; `none` if it goes on after them. -/
def splitAllFrom (sep : Str) : ℕ → List Str → Str → Except PatternError (Option (List Str))
  | 0, _, _ => pure none
  | n + 1, res, str => do
      let (lhs, rhs) ← split str sep
      match rhs with
      | none => pure (some (res ++ [lhs]))
      | some rhs => splitAllFrom sep n (res ++ [lhs]) rhs

/-- `split_all`, within a number of rounds. -/
def splitAll (n : ℕ) (str sep : Str) : Except PatternError (Option (List Str)) :=
  splitAllFrom sep n [] str

/-! ## Cutting a string at the matches of a pattern -/

/-- Cutting a string at the first match of a pattern, and what is behind the match again, until there
is none: the pieces, and the texts that were matched between them. -/
inductive Splits (sep : Str) : Str → List Str → List Str → Prop
  /-- There is no match. -/
  | last {str : Str} (hfind : find str sep = .ok none) : Splits sep str [str] []
  /-- A cut. -/
  | cut {lhs mid rhs : Str} {pieces mids : List Str}
      (hfind : find (lhs ++ (mid ++ rhs)) sep
        = .ok (some (lhs.length + 1, lhs.length + mid.length)))
      (hrest : Splits sep rhs pieces mids) :
      Splits sep (lhs ++ (mid ++ rhs)) (lhs :: pieces) (mid :: mids)

/-- The pieces with the matched texts between them. -/
def weave : List Str → List Str → Str
  | [], _ => []
  | piece :: pieces, [] => piece ++ weave pieces []
  | piece :: pieces, mid :: mids => piece ++ (mid ++ weave pieces mids)

/-- The matcher raises no error on what is left of a string, and no match is empty. -/
def Proper (sep str : Str) : Prop :=
  ∀ t, t <:+ str → ∃ r, find t sep = .ok r ∧ ∀ a b, r = some (a, b) → a ≤ b

/-- Cutting is undone by weaving. -/
theorem Splits.weave_eq {sep str : Str} {pieces mids : List Str} (h : Splits sep str pieces mids) :
    weave pieces mids = str := by
  induction h with
  | last => exact List.append_nil _
  | cut _ _ ih => rw [weave, ih]

/-- There is one text between two pieces. -/
theorem Splits.length_eq {sep str : Str} {pieces mids : List Str} (h : Splits sep str pieces mids) :
    pieces.length = mids.length + 1 := by
  induction h with
  | last => rfl
  | cut _ _ ih => rw [List.length_cons, List.length_cons, ih]

/-! ## The loop -/

/-- A string at a match. -/
theorem eq_cut {str : Str} {a b : ℕ} (ha : 0 < a) (hab : a ≤ b + 1) :
    str = subTo str (a - 1) ++ ((str.drop (a - 1)).take (b + 1 - a) ++ subFrom str (b + 1)) := by
  have hb : b = a - 1 + (b + 1 - a) := by omega
  have hrest : subFrom str (b + 1) = (str.drop (a - 1)).drop (b + 1 - a) := by
    rw [subFrom, List.drop_drop, Nat.add_sub_cancel, ← hb]
  rw [hrest, List.take_append_drop, subTo, List.take_append_drop]

/-- What `split` makes of a match. -/
theorem split_cut {lhs mid rhs sep : Str}
    (hfind : find (lhs ++ (mid ++ rhs)) sep
      = .ok (some (lhs.length + 1, lhs.length + mid.length))) :
    split (lhs ++ (mid ++ rhs)) sep = .ok (lhs, some rhs) := by
  have hrhs : subFrom (lhs ++ (mid ++ rhs)) (lhs.length + mid.length + 1) = rhs := by
    rw [subFrom, Nat.add_sub_cancel, ← List.drop_drop, List.drop_left, List.drop_left]
  have hlhs : subTo (lhs ++ (mid ++ rhs)) (lhs.length + 1 - 1) = lhs := by
    rw [subTo, Nat.add_sub_cancel, List.take_left]
  rw [split, hfind]
  change Except.ok (_, some _) = _
  rw [hrhs, hlhs]

/-- Every match that is found is such a cut. -/
theorem exists_cut {str sep : Str} {a b : ℕ} (hfind : find str sep = .ok (some (a, b))) :
    ∃ lhs mid rhs, str = lhs ++ (mid ++ rhs) ∧ a = lhs.length + 1 ∧ b = lhs.length + mid.length := by
  obtain ⟨ha, hab, hb⟩ := find_bounded hfind
  refine ⟨_, _, _, eq_cut ha hab, ?_, ?_⟩
  · rw [subTo, List.length_take]
    omega
  · rw [subTo, List.length_take, List.length_take, List.length_drop]
    omega

/-- **The loop cuts the string**, and has as many rounds as there are pieces. -/
theorem splitAllFrom_eq_some {sep str : Str} {n : ℕ} {res out : List Str} :
    splitAllFrom sep n res str = .ok (some out) ↔
      ∃ pieces mids, Splits sep str pieces mids ∧ pieces.length ≤ n ∧ out = res ++ pieces := by
  constructor
  · intro h
    induction n generalizing str res with
    | zero => cases h
    | succ n ih =>
        -- One round cuts at the first separator, or finds none and is the last.
        obtain ⟨⟨lhs, rhs⟩, hsplit, h⟩ := bind_eq_ok.mp h
        obtain ⟨r, hfind, hparts⟩ := bind_eq_ok.mp hsplit
        cases r with
        | none =>
            cases hparts
            obtain rfl := Option.some.inj (Except.ok.inj h)
            exact ⟨[str], [], .last hfind, Nat.succ_le_succ (Nat.zero_le n), rfl⟩
        | some x =>
            obtain ⟨a, b⟩ := x
            obtain ⟨_, mid, _, rfl, rfl, rfl⟩ := exists_cut hfind
            rw [split_cut hfind] at hsplit
            cases hsplit
            obtain ⟨pieces, mids, hcuts, hlength, rfl⟩ := ih h
            exact ⟨lhs :: pieces, mid :: mids, .cut hfind hcuts, Nat.succ_le_succ hlength,
              List.append_assoc _ _ _⟩
  · rintro ⟨pieces, mids, hcuts, hlength, rfl⟩
    induction hcuts generalizing n res with
    | last hfind =>
        obtain ⟨n, rfl⟩ := Nat.exists_eq_succ_of_ne_zero (Nat.ne_of_gt hlength)
        rw [splitAllFrom, split, hfind]
        rfl
    | @cut lhs mid rhs pieces mids hfind hrest ih =>
        rw [List.length_cons] at hlength
        obtain ⟨n, rfl⟩ := Nat.exists_eq_succ_of_ne_zero (n := n) (by omega)
        rw [splitAllFrom, split_cut hfind, List.append_cons]
        exact ih (Nat.le_of_succ_le_succ hlength)

/-- **`split_all` cuts the string at the matches of the separator.** -/
theorem splitAll_eq_some {str sep : Str} {pieces : List Str} :
    (∃ n, splitAll n str sep = .ok (some pieces)) ↔ ∃ mids, Splits sep str pieces mids := by
  constructor
  · rintro ⟨n, h⟩
    obtain ⟨pieces', mids, hcuts, -, rfl⟩ := splitAllFrom_eq_some.mp h
    exact ⟨mids, hcuts⟩
  · rintro ⟨mids, hcuts⟩
    exact ⟨pieces.length, splitAllFrom_eq_some.mpr ⟨pieces, mids, hcuts, Nat.le_refl _, rfl⟩⟩

/-- Where no match is empty, what is left gets shorter. -/
theorem Proper.exists_splits {sep str : Str} (h : Proper sep str) :
    ∃ pieces mids, Splits sep str pieces mids := by
  induction hn : str.length using Nat.strongRecOn generalizing str with
  | ind n ih =>
      obtain ⟨r, hfind, hnonempty⟩ := h str (List.suffix_refl str)
      cases r with
      | none => exact ⟨[str], [], .last hfind⟩
      | some x =>
          obtain ⟨a, b⟩ := x
          obtain ⟨lhs, mid, rhs, rfl, rfl, rfl⟩ := exists_cut hfind
          have hlt := hnonempty _ _ rfl
          have hsuffix : rhs <:+ lhs ++ (mid ++ rhs) := ⟨lhs ++ mid, List.append_assoc _ _ _⟩
          obtain ⟨pieces, mids, hcuts⟩ := ih rhs.length
            (by rw [← hn, List.length_append, List.length_append]; omega)
            (fun t ht => h t (ht.trans hsuffix)) rfl
          exact ⟨lhs :: pieces, mid :: mids, .cut hfind hcuts⟩

/-- **No round ends the loop** with an empty separator: it matches in front of every string. -/
theorem splitAll_empty (n : ℕ) (str : Str) : splitAll n str [] = .ok none := by
  have hsplit : split str [] = .ok ([], some str) := by
    have hfind : find ([] ++ ([] ++ str)) [] = .ok (some (1, 0)) := by
      rw [find, if_pos (by decide), plainFrom, List.isPrefixOf_nil_left, if_pos rfl]
      rfl
    have hcut := split_cut hfind
    rwa [List.nil_append, List.nil_append] at hcut
  rw [splitAll]
  generalize ([] : List Str) = res
  induction n generalizing res with
  | zero => rfl
  | succ n ih =>
      rw [splitAllFrom, hsplit]
      exact ih _

/-! ## Separators that stand for themselves -/

section StandsForItself

variable {sep : Str} (hsep : standsForItself sep = true)
include hsep

theorem sep_ne_nil : sep ≠ [] := by
  rw [standsForItself, Bool.and_eq_true, decide_eq_true_eq] at hsep
  exact hsep.1

/-- What is found is the separator, where it occurs first. -/
theorem find_eq_some {str : Str} {a b : ℕ} (h : find str sep = .ok (some (a, b))) :
    ∃ i, a = i + 1 ∧ b = i + sep.length ∧ sep <+: str.drop i ∧ ∀ j < i, ¬ sep <+: str.drop j := by
  rw [find_standsForItself hsep] at h
  obtain ⟨i, hi, heq⟩ := Option.map_eq_some_iff.mp (Except.ok.inj h)
  obtain ⟨rfl, rfl⟩ := Prod.mk.inj heq
  obtain ⟨-, -, hprefix, hfirst⟩ := plainFrom_eq_some hi
  exact ⟨i, rfl, rfl, hprefix, fun j => hfirst j (Nat.zero_le j)⟩

/-- Where nothing is found, the separator does not occur. -/
theorem not_infix {str : Str} (h : find str sep = .ok none) : ¬ sep <:+: str := by
  rintro ⟨u, v, rfl⟩
  rw [find_standsForItself hsep] at h
  have hnone := Option.map_eq_none_iff.mp (Except.ok.inj h)
  refine plainFrom_eq_none hnone (Nat.zero_le u.length) ?_ ?_
  · simp only [List.length_append]
    omega
  · rw [List.append_assoc, List.drop_left]
    exact List.prefix_append sep v

theorem proper (str : Str) : Proper sep str := by
  intro t ht
  refine ⟨_, find_standsForItself hsep t, fun a b heq => ?_⟩
  obtain ⟨i, rfl, rfl, -, -⟩ := find_eq_some hsep ((find_standsForItself hsep t).trans (by rw [heq]))
  have hpos := List.length_pos_iff.mpr (sep_ne_nil hsep)
  omega

/-- A cut at such a separator: the separator is cut out, and the piece does not contain it. -/
theorem cut_eq {lhs mid rhs : Str} (h : find (lhs ++ (mid ++ rhs)) sep
      = .ok (some (lhs.length + 1, lhs.length + mid.length))) :
    mid = sep ∧ ¬ sep <:+: lhs := by
  obtain ⟨i, ha, hb, hprefix, hfirst⟩ := find_eq_some hsep h
  obtain rfl := Nat.succ.inj ha
  have hlength : mid.length = sep.length := Nat.add_left_cancel hb
  rw [List.drop_left] at hprefix
  refine ⟨(List.prefix_of_prefix_length_le (List.prefix_append mid rhs) hprefix
    (Nat.le_of_eq hlength)).eq_of_length hlength, ?_⟩
  rintro ⟨u, v, rfl⟩
  have hpos := List.length_pos_iff.mpr (sep_ne_nil hsep)
  refine hfirst u.length (by simp only [List.length_append]; omega) ?_
  rw [List.append_assoc, List.append_assoc, List.drop_left]
  exact List.prefix_append sep _

theorem Splits.pieces_free {str : Str} {pieces mids : List Str} (h : Splits sep str pieces mids) :
    (∀ mid ∈ mids, mid = sep) ∧ ∀ piece ∈ pieces, ¬ sep <:+: piece := by
  induction h with
  | last hfind =>
      refine ⟨fun mid hmid => absurd hmid List.not_mem_nil, fun piece hpiece => ?_⟩
      rw [List.mem_singleton.mp hpiece]
      exact not_infix hsep hfind
  | cut hfind _ ih =>
      obtain ⟨hmid, hfree⟩ := cut_eq hsep hfind
      exact ⟨List.forall_mem_cons.mpr ⟨hmid, ih.1⟩, List.forall_mem_cons.mpr ⟨hfree, ih.2⟩⟩

end StandsForItself

/-- Weaving with one text is `table.concat`. -/
theorem weave_eq_intercalate {sep : Str} {pieces mids : List Str}
    (hlength : pieces.length = mids.length + 1) (hmids : ∀ mid ∈ mids, mid = sep) :
    weave pieces mids = sep.intercalate pieces := by
  induction mids generalizing pieces with
  | nil =>
      obtain ⟨piece, rfl⟩ := List.length_eq_one_iff.mp hlength
      rw [weave, weave, List.append_nil, List.intercalate_singleton]
  | cons mid mids ih =>
      obtain ⟨piece, pieces, rfl⟩ := List.exists_cons_of_length_eq_add_one hlength
      obtain ⟨hmid, hmids⟩ := List.forall_mem_cons.mp hmids
      have hrest := Nat.succ.inj hlength
      obtain ⟨next, pieces, rfl⟩ := List.exists_cons_of_length_eq_add_one hrest
      rw [weave, ih hrest hmids, hmid, List.intercalate_cons_cons, List.append_assoc]

/-- **`split_all` and joining.** It returns what cutting the string at the matches of the pattern
gives, which woven with the matched texts is the string. It ends unless the matcher raises or matches
the empty string; and with a separator that stands for itself, the pieces do not contain it, and
joining them with it gives the string. -/
theorem splitAll_joins (str sep : Str) :
    (∀ pieces, (∃ n, splitAll n str sep = .ok (some pieces)) ↔ ∃ mids, Splits sep str pieces mids) ∧
      (∀ pieces mids, Splits sep str pieces mids → weave pieces mids = str) ∧
      (Proper sep str → ∃ n pieces, splitAll n str sep = .ok (some pieces)) ∧
      (standsForItself sep = true → ∃ n pieces, splitAll n str sep = .ok (some pieces) ∧
        sep.intercalate pieces = str ∧ ∀ piece ∈ pieces, ¬ sep <:+: piece) := by
  have hends : ∀ {pieces mids}, Splits sep str pieces mids →
      ∃ n, splitAll n str sep = .ok (some pieces) :=
    fun hcuts => splitAll_eq_some.mpr ⟨_, hcuts⟩
  refine ⟨fun pieces => splitAll_eq_some, fun pieces mids => Splits.weave_eq, fun hproper => ?_,
    fun hsep => ?_⟩
  · obtain ⟨pieces, mids, hcuts⟩ := hproper.exists_splits
    obtain ⟨n, hn⟩ := hends hcuts
    exact ⟨n, pieces, hn⟩
  · obtain ⟨pieces, mids, hcuts⟩ := (proper hsep str).exists_splits
    obtain ⟨n, hn⟩ := hends hcuts
    obtain ⟨hmids, hfree⟩ := hcuts.pieces_free hsep
    refine ⟨n, pieces, hn, ?_, hfree⟩
    rw [← weave_eq_intercalate hcuts.length_eq hmids, hcuts.weave_eq]

/-- With "." for a separator, "ab" is split into empty pieces, and joining them gives "..". -/
theorem splitAll_dot :
    splitAll 3 [ch 'a', ch 'b'] [ch '.'] = .ok (some [[], [], []]) ∧
      List.intercalate [ch '.'] [[], [], []] ≠ [ch 'a', ch 'b'] := by
  decide

/-- "a,,b" is split at its commas and joined again. -/
theorem splitAll_joins_commas :
    standsForItself [ch ','] = true ∧ ∃ n pieces,
      splitAll n [ch 'a', ch ',', ch ',', ch 'b'] [ch ','] = .ok (some pieces) ∧
        List.intercalate [ch ','] pieces = [ch 'a', ch ',', ch ',', ch 'b'] ∧
        ∀ piece ∈ pieces, ¬ [ch ','] <:+: piece := by
  have hcomma : standsForItself [ch ','] = true := by decide
  exact ⟨hcomma, (splitAll_joins _ _).2.2.2 hcomma⟩

end FrameSync.Server.Utils
