import Mathlib.Data.List.Basic
import Mathlib.Tactic.Common

/-! # The patterns of Lua

`str_find_aux` of `lstrlib.c` and what it calls: the matcher of Lua patterns, with its classes, sets,
repetitions, captures, frontiers and errors, in the "C" locale. A pointer into the subject is a
position, and one into the pattern is what is left of it. `find_standsForItself`: where a pattern has
no item but plain characters, `find` finds its first occurrence. -/

namespace FrameSync

namespace LuaPattern

/-- A Lua string. -/
abbrev Str := List UInt8

/-- A character of the source. -/
def ch (c : Char) : UInt8 := c.toUInt8

/-- `luaL_error` -/
inductive PatternError
  /-- "malformed pattern (ends with '%')" -/
  | endsWithEsc
  /-- "malformed pattern (missing ']')" -/
  | missingBracket
  /-- "malformed pattern (missing arguments to '%b')" -/
  | missingArguments
  /-- "missing '[' after '%f' in pattern" -/
  | missingSet
  /-- "invalid capture index" -/
  | captureIndex
  /-- "invalid pattern capture" -/
  | patternCapture
  /-- "too many captures" -/
  | tooManyCaptures
  /-- "unfinished capture" -/
  | unfinishedCapture
  /-- "pattern too complex" -/
  | tooComplex
  deriving Repr, DecidableEq

/-- `len` of a capture. -/
inductive CaptureLen
  /-- `CAP_UNFINISHED` -/
  | unfinished
  /-- `CAP_POSITION` -/
  | position
  /-- A length. -/
  | closed (len : ℕ)
  deriving Repr, DecidableEq

/-- The captures, each with `init` and `len`. -/
abbrev Captures := List (ℕ × CaptureLen)

/-- What `match` does: it raises, fails, or ends at a position with some captures. A match that fails
leaves the captures as they were. -/
abbrev Matching := Except PatternError (Option (ℕ × Captures))

/-! ## Single characters -/

/-- Between two characters. -/
def between (lo hi : Char) (c : UInt8) : Bool := ch lo ≤ c && c ≤ ch hi

/-- `isalpha` -/
def isAlpha (c : UInt8) : Bool := between 'a' 'z' c || between 'A' 'Z' c

/-- `isdigit` -/
def isDigit (c : UInt8) : Bool := between '0' '9' c

/-- `islower` -/
def isLower (c : UInt8) : Bool := between 'a' 'z' c

/-- `tolower` -/
def toLower (c : UInt8) : UInt8 := if between 'A' 'Z' c then c + 32 else c

/-- The classes of `match_class`, by their lower case letter. -/
def classes : List (Char × (UInt8 → Bool)) :=
  [('a', isAlpha),
   ('c', fun c => c < 32 || c == 127),
   ('d', isDigit),
   ('g', between '!' '~'),
   ('l', isLower),
   ('p', fun c => between '!' '~' c && !(isAlpha c || isDigit c)),
   ('s', fun c => c == 32 || (9 ≤ c && c ≤ 13)),
   ('u', between 'A' 'Z'),
   ('w', fun c => isAlpha c || isDigit c),
   ('x', fun c => isDigit c || between 'a' 'f' c || between 'A' 'F' c),
   ('z', fun c => c == 0)]

/-- `match_class` -/
def matchClass (c cl : UInt8) : Bool :=
  match classes.find? fun x => ch x.1 == toLower cl with
  | some x => if isLower cl then x.2 c else !x.2 c
  | none => cl == c

/-- The loop of `matchbracketclass`, over what is between the brackets. -/
def setHas (c : UInt8) : Str → Bool
  | [] => false
  | [x] => x == c
  | [x, y] => if x = ch '%' then matchClass c y else x == c || y == c
  | x :: y :: z :: set =>
      if x = ch '%' then matchClass c y || setHas c (z :: set)
      else if y = ch '-' then (x ≤ c && c ≤ z) || setHas c set
      else x == c || setHas c (y :: z :: set)

/-- `matchbracketclass`, on what is between the brackets. -/
def matchBracketClass (c : UInt8) : Str → Bool
  | [] => false
  | x :: set => if x = ch '^' then !setHas c set else setHas c (x :: set)

/-- The loop of `classend` that looks for a `]`. -/
def bracketEnd : Str → Except PatternError Str
  | [] => .error .missingBracket
  | [_] => .error .missingBracket
  | [x, y] =>
      if x = ch '%' then .error .missingBracket
      else if y = ch ']' then .ok [] else .error .missingBracket
  | x :: y :: z :: p =>
      if x = ch '%' then if z = ch ']' then .ok p else bracketEnd (z :: p)
      else if y = ch ']' then .ok (z :: p) else bracketEnd (y :: z :: p)

/-- `classend` -/
def classEnd : Str → Except PatternError Str
  | [] => .ok []
  | c :: p =>
      if c = ch '%' then
        match p with
        | [] => .error .endsWithEsc
        | _ :: p => .ok p
      else if c = ch '[' then
        match p with
        | [] => .error .missingBracket
        | d :: p' => bracketEnd (if d = ch '^' then p' else p)
      else .ok p

/-- What is between the brackets of a set that begins `p` and ends at `ep`. -/
def inBrackets (p ep : Str) : Str := (p.drop 1).take (p.length - ep.length - 2)

/-- `singlematch`, on a character of the subject. -/
def singleMatch (c : UInt8) (p ep : Str) : Bool :=
  match p with
  | [] => false
  | x :: p' =>
      if x = ch '.' then true
      else if x = ch '%' then p'.head?.any (matchClass c)
      else if x = ch '[' then matchBracketClass c (inBrackets p ep)
      else x == c

/-- `singlematch` at a position, which may be the end. -/
def singleMatchAt (src : Str) (s : ℕ) (p ep : Str) : Bool := src[s]?.any fun c => singleMatch c p ep

/-! ## Items -/

/-- The loop of `matchbalance` over the rest of the subject; the next character is at `s`. -/
def balance (b e : UInt8) : Str → ℕ → ℕ → Option ℕ
  | [], _, _ => none
  | c :: rest, s, cont =>
      if c = e then if cont = 1 then some (s + 1) else balance b e rest (s + 1) (cont - 1)
      else balance b e rest (s + 1) (if c = b then cont + 1 else cont)

/-- `matchbalance` -/
def matchBalance (src : Str) (s : ℕ) : Str → Except PatternError (Option ℕ)
  | b :: e :: _ =>
      .ok (if src[s]? = some b then balance b e (src.drop (s + 1)) (s + 1) 1 else none)
  | _ => .error .missingArguments

/-- `capture_to_close` -/
def captureToClose (caps : Captures) : Option ℕ :=
  (List.range caps.length).reverse.find? fun l => caps[l]?.any fun x => x.2 = .unfinished

/-- `match_capture`, for a digit. A position is longer than any subject. -/
def matchCapture (src : Str) (caps : Captures) (s : ℕ) (l : UInt8) :
    Except PatternError (Option ℕ) :=
  if l < ch '1' then .error .captureIndex
  else
    match caps[(l - ch '1').toNat]? with
    | none => .error .captureIndex
    | some (_, .unfinished) => .error .captureIndex
    | some (_, .position) => .ok none
    | some (init, .closed len) =>
        .ok (if s + len ≤ src.length ∧ (src.drop init).take len = (src.drop s).take len
          then some (s + len) else none)

section Expand

variable (rec : Captures → ℕ → Str → Matching)

/-- The second loop of `max_expand`: `i` repetitions, or else fewer. -/
def maxExpandFrom (caps : Captures) (s : ℕ) (p : Str) : ℕ → Matching
  | 0 => rec caps s p
  | i + 1 => do
      match ← rec caps (s + (i + 1)) p with
      | some res => pure (some res)
      | none => maxExpandFrom caps s p i

/-- `max_expand` -/
def maxExpand (src : Str) (caps : Captures) (s : ℕ) (p ep : Str) : Matching :=
  maxExpandFrom rec caps s ep.tail ((src.drop s).takeWhile fun c => singleMatch c p ep).length

/-- `min_expand`, over the rest of the subject. -/
def minExpand (caps : Captures) (p ep : Str) : Str → ℕ → Matching
  | [], s => rec caps s ep.tail
  | c :: rest, s => do
      match ← rec caps s ep.tail with
      | some res => pure (some res)
      | none => if singleMatch c p ep then minExpand caps p ep rest (s + 1) else pure none

/-- `start_capture`. `LUA_MAXCAPTURES` is 32. -/
def startCapture (caps : Captures) (s : ℕ) (p : Str) (what : CaptureLen) : Matching :=
  if 32 ≤ caps.length then .error .tooManyCaptures else rec (caps ++ [(s, what)]) s p

/-- `end_capture` -/
def endCapture (caps : Captures) (s : ℕ) (p : Str) : Matching :=
  match captureToClose caps with
  | none => .error .patternCapture
  | some l => rec (caps.modify l fun x => (x.1, .closed (s - x.1))) s p

/-- The frontier item, with the pattern at its set; `next` is what `goto init` comes to. -/
def frontier (next : Captures → ℕ → Str → Matching) (src : Str) (caps : Captures) (s : ℕ)
    (p : Str) : Matching := do
  let ep ← classEnd p
  let previous := if s = 0 then 0 else src[s - 1]?.getD 0
  if !matchBracketClass previous (inBrackets p ep) &&
      matchBracketClass (src[s]?.getD 0) (inBrackets p ep) then next caps s ep
  else pure none

/-- A class and perhaps a suffix. -/
def classItem (next : Captures → ℕ → Str → Matching) (src : Str) (caps : Captures) (s : ℕ)
    (p : Str) : Matching := do
  let ep ← classEnd p
  let suffix := ep.head?
  if !singleMatchAt src s p ep then
    if suffix = some (ch '*') ∨ suffix = some (ch '?') ∨ suffix = some (ch '-') then
      next caps s ep.tail
    else pure none
  else if suffix = some (ch '?') then do
    match ← rec caps (s + 1) ep.tail with
    | some res => pure (some res)
    | none => next caps s ep.tail
  else if suffix = some (ch '+') then maxExpand rec src caps (s + 1) p ep
  else if suffix = some (ch '*') then maxExpand rec src caps s p ep
  else if suffix = some (ch '-') then minExpand rec caps p ep (src.drop s) s
  else next caps (s + 1) ep

/-- The body of `match`, for the items that `goto init` goes through; `rec` is `match` itself. The
first argument bounds their number. -/
def matchItems (src : Str) : ℕ → Captures → ℕ → Str → Matching
  | 0, _, _, _ => .error .tooComplex
  | _ + 1, caps, s, [] => .ok (some (s, caps))
  | n + 1, caps, s, c :: p =>
      if c = ch '(' then
        if p.head? = some (ch ')') then startCapture rec caps s p.tail .position
        else startCapture rec caps s p .unfinished
      else if c = ch ')' then endCapture rec caps s p
      else if c = ch '$' ∧ p = [] then .ok (if s = src.length then some (s, caps) else none)
      else if c = ch '%' ∧ p.head? = some (ch 'b') then do
        match ← matchBalance src s p.tail with
        | some s' => matchItems src n caps s' (p.drop 3)
        | none => pure none
      else if c = ch '%' ∧ p.head? = some (ch 'f') then
        if (p.drop 1).head? = some (ch '[') then
          frontier (matchItems src n) src caps s (p.drop 1)
        else .error .missingSet
      else if c = ch '%' ∧ p.head?.any isDigit then do
        match ← matchCapture src caps s (p.head?.getD 0) with
        | some s' => matchItems src n caps s' (p.drop 1)
        | none => pure none
      else classItem rec (matchItems src n) src caps s (c :: p)

end Expand

/-- `match`, within a depth. -/
def doMatch (src : Str) : ℕ → Captures → ℕ → Str → Matching
  | 0, _, _, _ => .error .tooComplex
  | depth + 1, caps, s, p => matchItems (doMatch src depth) src (p.length + 1) caps s p

/-- `MAXCCALLS` -/
def maxCCalls : ℕ := 200

/-! ## Finding -/

/-- `nospecials` -/
def noSpecials (p : Str) : Bool :=
  p.all fun c => c ∉ ['^', '$', '*', '+', '?', '.', '(', '[', '%', '-'].map ch

/-- `lmemfind`, from a position on; the number of positions that are left bounds the search. -/
def plainFrom (src p : Str) : ℕ → ℕ → Option ℕ
  | 0, _ => none
  | n + 1, s => if p.isPrefixOf (src.drop s) then some s else plainFrom src p n (s + 1)

/-- The loop of `str_find_aux`, from a position on. An unfinished capture cannot be pushed. -/
def findFrom (src p : Str) (anchor : Bool) : ℕ → ℕ → Except PatternError (Option (ℕ × ℕ))
  | 0, _ => .ok none
  | n + 1, s => do
      match ← doMatch src maxCCalls [] s p with
      | some (e, caps) =>
          if caps.any fun x => x.2 = .unfinished then .error .unfinishedCapture
          else pure (some (s + 1, e))
      | none => if anchor then pure none else findFrom src p anchor n (s + 1)

/-- `string.find` with a pattern only: the first and the last position of a match, counted from 1. -/
def find (src p : Str) : Except PatternError (Option (ℕ × ℕ)) :=
  if noSpecials p then
    .ok ((plainFrom src p (src.length + 1) 0).map fun s => (s + 1, s + p.length))
  else if p.head? = some (ch '^') then findFrom src p.tail true (src.length + 1) 0
  else findFrom src p false (src.length + 1) 0

/-- `string.sub` from the start to a position. -/
def subTo (src : Str) (e : ℕ) : Str := src.take e

/-- `string.sub` from a position, counted from 1. -/
def subFrom (src : Str) (s : ℕ) : Str := src.drop (s - 1)

/-! ## Where a match lies -/

/-- A match from `s` ends at or behind it, and within the subject. -/
def EndsFrom (src : Str) (s : ℕ) (x : Matching) : Prop :=
  ∀ e caps, x = .ok (some (e, caps)) → s ≤ e ∧ e ≤ src.length

/-- Every match does. -/
def Bounded (src : Str) (rec : Captures → ℕ → Str → Matching) : Prop :=
  ∀ caps s p, s ≤ src.length → EndsFrom src s (rec caps s p)

/-- A sequence that ends normally. -/
theorem bind_eq_ok {α β : Type} {x : Except PatternError α} {f : α → Except PatternError β} {b : β} :
    x >>= f = .ok b ↔ ∃ a, x = .ok a ∧ f a = .ok b := by
  cases x with
  | error e =>
      constructor
      · intro h
        cases h
      · rintro ⟨a, ha, -⟩
        cases ha
  | ok a =>
      constructor
      · exact fun h => ⟨a, rfl, h⟩
      · rintro ⟨a', ha, h⟩
        obtain rfl := Except.ok.inj ha
        exact h

namespace EndsFrom

variable {src : Str} {s : ℕ}

theorem error (err : PatternError) : EndsFrom src s (.error err) := fun _ _ h => by cases h

theorem none : EndsFrom src s (.ok .none) := fun _ _ h => by cases h

theorem here (hs : s ≤ src.length) (caps : Captures) : EndsFrom src s (.ok (some (s, caps))) := by
  intro e caps' h
  obtain ⟨rfl, -⟩ := Prod.mk.inj (Option.some.inj (Except.ok.inj h))
  exact ⟨Nat.le_refl _, hs⟩

theorem ite {c : Prop} [Decidable c] {x y : Matching} (hx : c → EndsFrom src s x)
    (hy : ¬ c → EndsFrom src s y) : EndsFrom src s (if c then x else y) := by
  split
  · exact hx ‹c›
  · exact hy ‹¬ c›

/-- A match from further on. -/
theorem mono {s' : ℕ} {x : Matching} (hs : s ≤ s') (h : EndsFrom src s' x) : EndsFrom src s x := by
  intro e caps hx
  have hend := h e caps hx
  exact ⟨Nat.le_trans hs hend.1, hend.2⟩

theorem bind {α : Type} {x : Except PatternError α} {f : α → Matching}
    (h : ∀ a, x = .ok a → EndsFrom src s (f a)) : EndsFrom src s (x >>= f) := by
  intro e caps hx
  obtain ⟨a, ha, hf⟩ := bind_eq_ok.mp hx
  exact h a ha e caps hf

/-- One attempt, or else the next. -/
theorem orElse {x y : Matching} (hx : EndsFrom src s x) (hy : EndsFrom src s y) :
    EndsFrom src s (do
      match ← x with
      | some res => pure (some res)
      | .none => y) := by
  refine EndsFrom.bind fun a ha => ?_
  cases a with
  | none => exact hy
  | some res => exact fun e caps h => hx e caps (ha.trans h)

/-- An item that moves on to a position, and then what follows it. -/
theorem andThen {x : Except PatternError (Option ℕ)} {f : ℕ → Matching}
    (hx : ∀ s', x = .ok (some s') → s ≤ s' ∧ s' ≤ src.length)
    (hf : ∀ s', s' ≤ src.length → EndsFrom src s' (f s')) : EndsFrom src s (do
      match ← x with
      | some s' => f s'
      | .none => pure .none) := by
  refine EndsFrom.bind fun a ha => ?_
  cases a with
  | none => exact EndsFrom.none
  | some s' =>
      obtain ⟨hle, hend⟩ := hx s' ha
      exact (hf s' hend).mono hle

end EndsFrom

section Bounded

variable {src : Str} {rec next : Captures → ℕ → Str → Matching}

theorem endsFrom_maxExpandFrom (hrec : Bounded src rec) (caps : Captures) {s i : ℕ} (p : Str)
    (hs : s + i ≤ src.length) : EndsFrom src s (maxExpandFrom rec caps s p i) := by
  induction i with
  | zero => exact hrec _ _ _ hs
  | succ i ih => exact ((hrec _ _ _ hs).mono (by omega)).orElse (ih (by omega))

theorem endsFrom_maxExpand (hrec : Bounded src rec) (caps : Captures) {s : ℕ} (p ep : Str)
    (hs : s ≤ src.length) : EndsFrom src s (maxExpand rec src caps s p ep) := by
  have hprefix : (src.drop s).takeWhile (fun c => singleMatch c p ep) <+: src.drop s :=
    List.takeWhile_prefix fun c => singleMatch c p ep
  have hcount := hprefix.length_le
  rw [List.length_drop] at hcount
  exact endsFrom_maxExpandFrom hrec caps _ (by omega)

theorem endsFrom_minExpand (hrec : Bounded src rec) (caps : Captures) (p ep : Str) {rest : Str}
    {s : ℕ} (hs : s + rest.length ≤ src.length) :
    EndsFrom src s (minExpand rec caps p ep rest s) := by
  induction rest generalizing s with
  | nil => exact hrec _ _ _ hs
  | cons c rest ih =>
      rw [List.length_cons] at hs
      refine (hrec _ _ _ (by omega)).orElse (.ite (fun _ => ?_) fun _ => .none)
      exact (ih (by omega)).mono (Nat.le_succ s)

theorem balance_bounds {b e : UInt8} {rest : Str} {s cont s' : ℕ}
    (h : balance b e rest s cont = some s') : s ≤ s' ∧ s' ≤ s + rest.length := by
  induction rest generalizing s cont with
  | nil => cases h
  | cons c rest ih =>
      rw [balance] at h
      rw [List.length_cons]
      split at h
      · split at h
        · obtain rfl := Option.some.inj h
          omega
        · have hend := ih h
          omega
      · have hend := ih h
        omega

theorem matchBalance_bounds {s s' : ℕ} {p : Str} (h : matchBalance src s p = .ok (some s')) :
    s ≤ s' ∧ s' ≤ src.length := by
  unfold matchBalance at h
  split at h
  · have heq := Except.ok.inj h
    split at heq
    · rename_i hs
      have hlt := (List.getElem?_eq_some_iff.mp hs).1
      have hend := balance_bounds heq
      rw [List.length_drop] at hend
      omega
    · cases heq
  · cases h

theorem matchCapture_bounds {caps : Captures} {s s' : ℕ} {l : UInt8}
    (h : matchCapture src caps s l = .ok (some s')) : s ≤ s' ∧ s' ≤ src.length := by
  unfold matchCapture at h
  split at h
  · cases h
  · split at h
    · cases h
    · cases h
    · cases h
    · have heq := Except.ok.inj h
      split at heq
      · rename_i hlen
        obtain rfl := Option.some.inj heq
        exact ⟨Nat.le_add_right _ _, hlen.1⟩
      · cases heq

theorem endsFrom_endCapture (hrec : Bounded src rec) (caps : Captures) {s : ℕ} (p : Str)
    (hs : s ≤ src.length) : EndsFrom src s (endCapture rec caps s p) := by
  unfold endCapture
  split
  · exact .error _
  · exact hrec _ _ _ hs

theorem endsFrom_frontier (hnext : Bounded src next) (caps : Captures) {s : ℕ} (p : Str)
    (hs : s ≤ src.length) : EndsFrom src s (frontier next src caps s p) := by
  refine EndsFrom.bind fun ep _ => ?_
  exact EndsFrom.ite (fun _ => hnext _ _ _ hs) fun _ => .none

theorem endsFrom_classItem (hrec : Bounded src rec) (hnext : Bounded src next) (caps : Captures)
    {s : ℕ} (p : Str) (hs : s ≤ src.length) : EndsFrom src s (classItem rec next src caps s p) := by
  refine EndsFrom.bind fun ep _ => EndsFrom.ite (fun _ => ?_) fun hsingle => ?_
  · exact EndsFrom.ite (fun _ => hnext _ _ _ hs) fun _ => .none
  · -- a character was matched, so this is not the end of the subject
    have hlt : s + 1 ≤ src.length := by
      by_contra hge
      rw [singleMatchAt, List.getElem?_eq_none (by omega)] at hsingle
      exact hsingle rfl
    have hle := Nat.le_succ s
    refine EndsFrom.ite (fun _ => ?_) fun _ => ?_
    · exact ((hrec _ _ _ hlt).mono hle).orElse (hnext _ _ _ hs)
    refine EndsFrom.ite (fun _ => (endsFrom_maxExpand hrec caps p ep hlt).mono hle) fun _ => ?_
    refine EndsFrom.ite (fun _ => endsFrom_maxExpand hrec caps p ep hs) fun _ => ?_
    refine EndsFrom.ite (fun _ => ?_) fun _ => (hnext _ _ _ hlt).mono hle
    refine endsFrom_minExpand hrec caps p ep ?_
    rw [List.length_drop]
    omega

theorem bounded_matchItems (hrec : Bounded src rec) (n : ℕ) : Bounded src (matchItems rec src n) := by
  induction n with
  | zero => exact fun caps s p _ => EndsFrom.error _
  | succ n ih =>
      intro caps s p hs
      cases p with
      | nil => exact EndsFrom.here hs caps
      | cons c p =>
          refine EndsFrom.ite (fun _ => ?_) fun _ => ?_
          · refine EndsFrom.ite (fun _ => ?_) fun _ => ?_
            · exact EndsFrom.ite (fun _ => .error _) fun _ => hrec _ _ _ hs
            · exact EndsFrom.ite (fun _ => .error _) fun _ => hrec _ _ _ hs
          refine EndsFrom.ite (fun _ => endsFrom_endCapture hrec caps p hs) fun _ => ?_
          refine EndsFrom.ite (fun _ => ?_) fun _ => ?_
          · split
            · exact EndsFrom.here hs caps
            · exact EndsFrom.none
          refine EndsFrom.ite (fun _ => ?_) fun _ => ?_
          · exact EndsFrom.andThen (fun s' => matchBalance_bounds) fun s' hs' => ih _ _ _ hs'
          refine EndsFrom.ite (fun _ => ?_) fun _ => ?_
          · refine EndsFrom.ite (fun _ => ?_) fun _ => .error _
            exact endsFrom_frontier ih caps _ hs
          refine EndsFrom.ite (fun _ => ?_) fun _ => endsFrom_classItem hrec ih caps _ hs
          exact EndsFrom.andThen (fun s' => matchCapture_bounds) fun s' hs' => ih _ _ _ hs'

theorem bounded_doMatch (src : Str) (depth : ℕ) : Bounded src (doMatch src depth) := by
  induction depth with
  | zero => exact fun caps s p _ => EndsFrom.error _
  | succ depth ih => exact fun caps s p => bounded_matchItems ih _ caps s p

end Bounded

theorem bounded_findFrom {src p : Str} {anchor : Bool} {n s a b : ℕ} (hn : s + n ≤ src.length + 1)
    (h : findFrom src p anchor n s = .ok (some (a, b))) : 0 < a ∧ a ≤ b + 1 ∧ b ≤ src.length := by
  induction n generalizing s with
  | zero => cases h
  | succ n ih =>
      obtain ⟨res, hmatch, h⟩ := bind_eq_ok.mp h
      cases res with
      | none =>
          dsimp only at h
          split at h
          · cases h
          · exact ih (by omega) h
      | some x =>
          obtain ⟨e, caps⟩ := x
          dsimp only at h
          split at h
          · cases h
          · obtain ⟨rfl, rfl⟩ := Prod.mk.inj (Option.some.inj (Except.ok.inj h))
            have hend := bounded_doMatch src maxCCalls _ _ _ (by omega) _ _ hmatch
            omega

/-- What a plain search finds: the first occurrence. -/
theorem plainFrom_eq_some {src p : Str} {n s i : ℕ} (h : plainFrom src p n s = some i) :
    s ≤ i ∧ i < s + n ∧ p <+: src.drop i ∧ ∀ j, s ≤ j → j < i → ¬ p <+: src.drop j := by
  induction n generalizing s with
  | zero => cases h
  | succ n ih =>
      rw [plainFrom] at h
      split at h
      · rename_i hprefix
        obtain rfl := Option.some.inj h
        exact ⟨Nat.le_refl _, by omega, List.isPrefixOf_iff_prefix.mp hprefix, fun j hj hj' => by omega⟩
      · rename_i hprefix
        obtain ⟨hle, hlt, hfound, hfirst⟩ := ih h
        refine ⟨by omega, by omega, hfound, fun j hj hj' => ?_⟩
        rcases Nat.eq_or_lt_of_le hj with rfl | hj
        · exact fun hp => hprefix (List.isPrefixOf_iff_prefix.mpr hp)
        · exact hfirst j hj hj'

theorem plainFrom_eq_none {src p : Str} {n s : ℕ} (h : plainFrom src p n s = none) {j : ℕ}
    (hj : s ≤ j) (hj' : j < s + n) : ¬ p <+: src.drop j := by
  induction n generalizing s with
  | zero => omega
  | succ n ih =>
      rw [plainFrom] at h
      split at h
      · cases h
      · rename_i hprefix
        rcases Nat.eq_or_lt_of_le hj with rfl | hj
        · exact fun hp => hprefix (List.isPrefixOf_iff_prefix.mpr hp)
        · exact ih h hj (by omega)

/-- **Where a match lies**: within the subject. It may be empty. -/
theorem find_bounded {src p : Str} {a b : ℕ} (h : find src p = .ok (some (a, b))) :
    0 < a ∧ a ≤ b + 1 ∧ b ≤ src.length := by
  rw [find] at h
  split at h
  · obtain ⟨i, hi, heq⟩ := Option.map_eq_some_iff.mp (Except.ok.inj h)
    obtain ⟨rfl, rfl⟩ := Prod.mk.inj heq
    obtain ⟨-, -, hprefix, -⟩ := plainFrom_eq_some hi
    have hlength := hprefix.length_le
    rw [List.length_drop] at hlength
    have hin := (plainFrom_eq_some hi).2.1
    omega
  · split at h
    · exact bounded_findFrom (by omega) h
    · exact bounded_findFrom (by omega) h

/-! ## Patterns that stand for themselves -/

/-- A character that is a plain item of its own. -/
def plainChar (c : UInt8) : Bool := c ∉ ['.', '(', ')', '[', '%'].map ch

/-- A suffix of an item. -/
def isSuffix (c : UInt8) : Bool := c ∈ ['*', '+', '?', '-'].map ch

/-- Every item is a plain character without a suffix. -/
def plainItems : Str → Bool
  | [] => true
  | [c] => plainChar c && c ≠ ch '$'
  | c :: d :: p => plainChar c && !isSuffix d && plainItems (d :: p)

/-- The pattern is not empty and stands for itself: it has no special character, or those that it has
are plain where they are. -/
def standsForItself (p : Str) : Bool :=
  p ≠ [] && (noSpecials p || (p.head? ≠ some (ch '^') && plainItems p))

/-- The characters that are tested for. -/
theorem plainChar_iff {c : UInt8} : plainChar c = true ↔
    c ≠ ch '.' ∧ c ≠ ch '(' ∧ c ≠ ch ')' ∧ c ≠ ch '[' ∧ c ≠ ch '%' := by
  simp [plainChar]

/-- The first item of a plain pattern: a character, not the end of the subject, without a suffix. -/
theorem plainItems_cons {c : UInt8} {p : Str} (h : plainItems (c :: p) = true) :
    plainChar c = true ∧ ¬ (c = ch '$' ∧ p = []) ∧ (∀ d, p.head? = some d → isSuffix d = false) ∧
      plainItems p = true := by
  cases p with
  | nil =>
      simp only [plainItems, Bool.and_eq_true, decide_eq_true_eq] at h
      exact ⟨h.1, fun hc => h.2 hc.1, fun d hd => (Option.some_ne_none d hd.symm).elim, rfl⟩
  | cons d p =>
      simp only [plainItems, Bool.and_eq_true, Bool.not_eq_true'] at h
      refine ⟨h.1.1, fun hc => List.cons_ne_nil _ _ hc.2, fun d' hd' => ?_, h.2⟩
      obtain rfl := Option.some.inj hd'
      exact h.1.2

/-- A plain character ends a class, and is matched by itself. -/
theorem classEnd_plain {c : UInt8} (hc : plainChar c = true) (p : Str) :
    classEnd (c :: p) = .ok p := by
  obtain ⟨-, -, -, hset, hesc⟩ := plainChar_iff.mp hc
  unfold classEnd
  dsimp only
  rw [if_neg hesc, if_neg hset]

theorem beq_eq_decide_some (c x : UInt8) : (c == x) = decide (some x = some c) := by
  rw [Bool.eq_iff_iff, beq_iff_eq, decide_eq_true_iff, Option.some_inj, eq_comm]

theorem singleMatchAt_plain {c : UInt8} (hc : plainChar c = true) (src : Str) (s : ℕ)
    (p ep : Str) : singleMatchAt src s (c :: p) ep = decide (src[s]? = some c) := by
  obtain ⟨hdot, -, -, hset, hesc⟩ := plainChar_iff.mp hc
  rw [singleMatchAt]
  cases src[s]? with
  | none => rfl
  | some x =>
      rw [Option.any_some, singleMatch, if_neg hdot, if_neg hesc, if_neg hset]
      exact beq_eq_decide_some c x

/-- A plain character without a suffix: it is the next one, or the match fails. -/
theorem classItem_plain {rec next : Captures → ℕ → Str → Matching} {src : Str} {caps : Captures}
    {s : ℕ} {c : UInt8} {p : Str} (hc : plainChar c = true)
    (hp : ∀ d, p.head? = some d → isSuffix d = false) :
    classItem rec next src caps s (c :: p)
      = if src[s]? = some c then next caps (s + 1) p else .ok none := by
  have hnosuffix : ∀ x, isSuffix x = true → p.head? ≠ some x :=
    fun x hx hhead => Bool.false_ne_true ((hp x hhead).symm.trans hx)
  have hstar := hnosuffix (ch '*') (by decide)
  have hplus := hnosuffix (ch '+') (by decide)
  have hquestion := hnosuffix (ch '?') (by decide)
  have hminus := hnosuffix (ch '-') (by decide)
  unfold classItem
  rw [classEnd_plain hc]
  change (if (!singleMatchAt src s (c :: p) p) = true then _ else _) = _
  rw [singleMatchAt_plain hc]
  by_cases hs : src[s]? = some c
  · rw [if_neg (by simp [hs]), if_neg hquestion, if_neg hplus, if_neg hstar, if_neg hminus, if_pos hs]
  · rw [if_pos (by simp [hs]), if_neg hs, if_neg]
    · rfl
    · rintro (h | h | h)
      · exact hstar h
      · exact hquestion h
      · exact hminus h

/-- The first character of an occurrence, and the rest. -/
theorem isPrefixOf_drop_cons (src p : Str) (c : UInt8) (s : ℕ) :
    (c :: p).isPrefixOf (src.drop s)
      = (decide (src[s]? = some c) && p.isPrefixOf (src.drop (s + 1))) := by
  rcases Nat.lt_or_ge s src.length with hs | hs
  · rw [List.drop_eq_getElem_cons hs, List.getElem?_eq_getElem hs, List.isPrefixOf_cons_cons,
      beq_eq_decide_some]
  · rw [List.drop_eq_nil_of_le hs, List.getElem?_eq_none hs]
    rfl

/-- **The items of a plain pattern match the pattern itself.** -/
theorem matchItems_plain {rec : Captures → ℕ → Str → Matching} {src : Str} {caps : Captures}
    {p : Str} (hp : plainItems p = true) {n s : ℕ} (hn : p.length < n) :
    matchItems rec src n caps s p
      = .ok (if p.isPrefixOf (src.drop s) then some (s + p.length, caps) else none) := by
  induction p generalizing n s with
  | nil =>
      obtain ⟨n, rfl⟩ := Nat.exists_eq_succ_of_ne_zero (Nat.ne_of_gt hn)
      rfl
  | cons c p ih =>
      rw [List.length_cons] at hn
      obtain ⟨n, rfl⟩ := Nat.exists_eq_succ_of_ne_zero (n := n) (by omega)
      obtain ⟨hc, hend, hsuffix, hrest⟩ := plainItems_cons hp
      obtain ⟨-, hopen, hclose, -, hesc⟩ := plainChar_iff.mp hc
      rw [matchItems, if_neg hopen, if_neg hclose, if_neg hend, if_neg fun h => hesc h.1,
        if_neg fun h => hesc h.1, if_neg fun h => hesc h.1, classItem_plain hc hsuffix,
        isPrefixOf_drop_cons]
      by_cases hs : src[s]? = some c
      · rw [if_pos hs, ih hrest (by omega), decide_eq_true hs, Bool.true_and, List.length_cons,
          Nat.add_assoc, Nat.add_comm 1]
      · rw [if_neg hs, decide_eq_false hs]
        rfl

/-- So does the matcher at every position. -/
theorem findFrom_plain {src p : Str} (hp : plainItems p = true) (n s : ℕ) :
    findFrom src p false n s
      = .ok ((plainFrom src p n s).map fun s => (s + 1, s + p.length)) := by
  induction n generalizing s with
  | zero => rfl
  | succ n ih =>
      rw [findFrom, plainFrom, maxCCalls, doMatch, matchItems_plain hp (Nat.lt_succ_self _)]
      by_cases hs : p.isPrefixOf (src.drop s) = true
      · rw [if_pos hs, if_pos hs]
        rfl
      · rw [if_neg hs, if_neg hs]
        exact ih (s + 1)

/-- **A pattern that stands for itself**: its first occurrence is found. -/
theorem find_standsForItself {p : Str} (hp : standsForItself p = true) (src : Str) :
    find src p = .ok ((plainFrom src p (src.length + 1) 0).map fun s => (s + 1, s + p.length)) := by
  rw [standsForItself, Bool.and_eq_true, Bool.or_eq_true, Bool.and_eq_true, decide_eq_true_eq,
    decide_eq_true_eq] at hp
  rw [find]
  rcases hp.2 with hspecials | ⟨hhead, hitems⟩
  · rw [if_pos hspecials]
  · rw [if_neg hhead, findFrom_plain hitems, ite_self]

end LuaPattern

end FrameSync
