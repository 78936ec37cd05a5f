import Mathlib.Algebra.Order.Group.Nat
import Mathlib.Algebra.Order.Ring.Int
import Mathlib.Tactic.Common

/-! # The sproto wire format

The encoder of `sproto.c`: a struct is a field count, one 16-bit word per field and a data part;
a small integer lives in its word, everything else in the data part behind a 32-bit length.
`spack` is the zero packing that follows: groups of eight bytes, each with a bit mask of its
nonzero bytes, and runs of dense groups copied behind `0xff`. Strings are byte lists. -/

namespace FrameSync.Sproto

/-- A Lua string, as its bytes. -/
abbrev Bytes := List UInt8

/-- `n` bytes of `v`, least significant first. -/
def leBytes (n v : ℕ) : Bytes := (List.range n).map fun i => UInt8.ofNat (v / 256 ^ i)

@[simp] theorem length_leBytes (n v : ℕ) : (leBytes n v).length = n := by simp [leBytes]

/-- `fill_size`: a data part behind its 32-bit length. -/
def fillSize (data : Bytes) : Bytes := leBytes 4 data.length ++ data

@[simp] theorem length_fillSize (data : Bytes) : (fillSize data).length = 4 + data.length := by
  simp [fillSize]

/-- What one field contributes: a value in its own word, or a data part. -/
inductive Field
  /-- A value below `0x7fff`, stored in the field's word as `2 * (v + 1)`. -/
  | small (v : ℕ)
  /-- A data part; the field's word is zero. -/
  | data (b : Bytes)
  deriving Repr, DecidableEq

/-- The 16-bit word of a field. -/
def Field.word : Field → ℕ
  | .small v => 2 * (v + 1)
  | .data _ => 0

/-- The data part of a field. -/
def Field.bytes : Field → Bytes
  | .small _ => []
  | .data b => b

/-- An integer field: 32 bits when the value fits, in the word when it is also small and not
negative, else 64 bits. -/
def encodeInteger (v : ℤ) : Field :=
  if -2 ^ 31 ≤ v ∧ v < 2 ^ 31 then
    let u := (v % 2 ^ 32).toNat
    if u < 0x7fff then .small u else .data (fillSize (leBytes 4 u))
  else .data (fillSize (leBytes 8 (v % 2 ^ 64).toNat))

/-- A boolean field. -/
def encodeBoolean (b : Bool) : Field := .small b.toNat

/-- `encode_object`: a string, or an encoded struct, as a field. -/
def encodeObject (b : Bytes) : Field := .data (fillSize b)

/-- `encode_array` of encoded structs, as a field. -/
def encodeArray (elems : List Bytes) : Field := .data (fillSize (elems.flatMap fillSize))

/-- The words of the present fields, in tag order. `next` is the tag that needs no skip; a gap of
`k` tags is announced by the odd word `2 * (k - 1) + 1`. -/
def words (next : ℕ) : List (ℕ × Option Field) → List ℕ
  | [] => []
  | (_, none) :: rest => words next rest
  | (tag, some f) :: rest =>
      (if next < tag then [2 * (tag - next - 1) + 1] else []) ++ f.word :: words (tag + 1) rest

/-- `sproto_encode`: the fields of a struct by ascending tag, the absent ones left out. -/
def encodeStruct (fields : List (ℕ × Option Field)) : Bytes :=
  let ws := words 0 fields
  leBytes 2 ws.length ++ ws.flatMap (leBytes 2) ++ fields.flatMap fun f => f.2.elim [] Field.bytes

/-! ## Zero packing -/

/-- The input in groups of eight bytes, the last one padded with zeros. -/
def groups : Bytes → List Bytes
  | a :: b :: c :: d :: e :: f :: g :: h :: rest => [a, b, c, d, e, f, g, h] :: groups rest
  | [] => []
  | last => [last ++ List.replicate (8 - last.length) 0]

/-- The number of nonzero bytes of a group. -/
def notzero (g : Bytes) : ℕ := g.countP (· ≠ 0)

/-- The bit mask of the nonzero bytes of a group. -/
def mask : Bytes → ℕ
  | [] => 0
  | b :: bs => (if b ≠ 0 then 1 else 0) + 2 * mask bs

/-- `pack_seg` on a group outside a run: the mask and the nonzero bytes. -/
def packSeg (g : Bytes) : Bytes := UInt8.ofNat (mask g) :: g.filter (· ≠ 0)

/-- `write_ff`: a run of dense groups, copied behind `0xff` and its length. -/
def writeFF (run : List Bytes) : Bytes := 0xff :: UInt8.ofNat (run.length - 1) :: run.flatten

/-- The loop of `sproto_pack` over the groups. `run` holds the groups of the open run: a full
group opens one, a group with at most two zeros continues it, and 256 groups close it. -/
def packGroups : List Bytes → List Bytes → Bytes
  | [], run => if run = [] then [] else writeFF run
  | g :: gs, run =>
      if run = [] then
        if notzero g = 8 then packGroups gs [g] else packSeg g ++ packGroups gs []
      else if 6 ≤ notzero g then
        if run.length + 1 = 256 then writeFF (run ++ [g]) ++ packGroups gs []
        else packGroups gs (run ++ [g])
      else writeFF run ++ packSeg g ++ packGroups gs []

/-- `sproto_pack`. -/
def spack (b : Bytes) : Bytes := packGroups (groups b) []

/-! ## What packing keeps -/

@[simp] theorem notzero_nil : notzero [] = 0 := rfl

@[simp] theorem notzero_append (a b : Bytes) : notzero (a ++ b) = notzero a + notzero b :=
  List.countP_append

/-- A part has no more nonzero bytes than the whole. -/
theorem notzero_le_of_isInfix {a b : Bytes} (h : a <:+: b) : notzero a ≤ notzero b :=
  h.sublist.countP_le

/-- The groups keep the nonzero bytes; only zeros are added. -/
theorem notzero_groups (b : Bytes) : notzero (groups b).flatten = notzero b := by
  induction b using groups.induct with
  | case1 a b c d e f g h rest ih =>
      rw [groups, List.flatten_cons, notzero_append, ih, ← notzero_append]
      rfl
  | case2 => rfl
  | case3 last hne hlast =>
      rw [groups]
      · simp [notzero, List.countP_replicate]
      all_goals assumption

/-- Packing the groups keeps every nonzero byte: a mask is followed by the nonzero bytes of its
group, and a run is copied whole. -/
theorem notzero_le_packGroups (gs run : List Bytes) :
    notzero run.flatten + notzero gs.flatten ≤ (packGroups gs run).length := by
  induction gs generalizing run with
  | nil =>
      have hrun : notzero run.flatten ≤ run.flatten.length := List.countP_le_length
      rw [packGroups]
      split
      · simp_all
      · simp only [writeFF, List.length_cons, List.flatten_nil, notzero_nil]; omega
  | cons g gs ih =>
      have hg : notzero g = (g.filter (· ≠ 0)).length := List.countP_eq_length_filter
      have hle : notzero g ≤ g.length := List.countP_le_length
      have hrun : notzero run.flatten ≤ run.flatten.length := List.countP_le_length
      have hnil := ih []
      have hone := ih [g]
      have hnext := ih (run ++ [g])
      simp only [List.flatten_append, List.flatten_cons, List.flatten_nil, List.append_nil,
        notzero_append, notzero_nil] at hnil hone hnext ⊢
      rw [packGroups]
      split_ifs with h1 h2 h3 h4
      · simp only [h1, List.flatten_nil, notzero_nil]; omega
      · simp only [h1, packSeg, List.length_append, List.length_cons, List.flatten_nil,
          notzero_nil]
        omega
      · simp only [writeFF, List.length_append, List.length_cons, List.flatten_append,
          List.flatten_cons, List.flatten_nil, List.length_nil]
        omega
      · omega
      · simp only [writeFF, packSeg, List.length_append, List.length_cons]
        omega

/-- **Packing keeps every nonzero byte.** -/
theorem notzero_le_length_spack (b : Bytes) : notzero b ≤ (spack b).length := by
  have h := notzero_le_packGroups (groups b) []
  simpa [spack, notzero_groups] using h

/-! ## How long an encoding is -/

/-- The groups are of eight bytes, and there are no more of them than needed. -/
theorem length_groups (b : Bytes) :
    (groups b).length ≤ b.length / 8 + 1 ∧ ∀ g ∈ groups b, g.length = 8 := by
  induction b using groups.induct with
  | case1 a b c d e f g h rest ih =>
      rw [groups]
      refine ⟨?_, fun x hx => ?_⟩
      · simp only [List.length_cons]
        omega
      · rcases List.mem_cons.mp hx with rfl | hx
        · rfl
        · exact ih.2 x hx
  | case2 => exact ⟨Nat.zero_le _, fun x hx => nomatch hx⟩
  | case3 last hne hlast =>
      have hshort : last.length < 8 := by
        by_contra hlong
        match last, hlong with
        | a :: b :: c :: d :: e :: f :: g :: h :: rest, _ => exact hne a b c d e f g h rest rfl
        | [], hlong | [_], hlong | [_, _], hlong | [_, _, _], hlong | [_, _, _, _], hlong
        | [_, _, _, _, _], hlong | [_, _, _, _, _, _], hlong | [_, _, _, _, _, _, _], hlong =>
            exact hlong (by simp)
      rw [groups]
      · refine ⟨by simp, fun x hx => ?_⟩
        rw [List.mem_singleton.mp hx, List.length_append, List.length_replicate]
        omega
      all_goals assumption

/-- Packing adds at most two bytes to a group. -/
theorem length_packGroups (gs run : List Bytes) (hgs : ∀ g ∈ gs, g.length = 8) :
    (packGroups gs run).length ≤ 10 * gs.length + run.flatten.length + 2 * run.length := by
  induction gs generalizing run with
  | nil =>
      rw [packGroups]
      split
      · simp
      · rename_i hrun
        have hpos := List.length_pos_iff.mpr hrun
        simp only [writeFF, List.length_cons, List.length_nil]
        omega
  | cons g gs ih =>
      have hg := hgs g List.mem_cons_self
      have hle : (g.filter (· ≠ 0)).length ≤ g.length := List.length_filter_le _ _
      have hrest := fun run => ih run fun g' hg' => hgs g' (List.mem_cons_of_mem _ hg')
      -- The three runs that the rest of the groups may start from.
      have hnil := hrest []
      have hone := hrest [g]
      have hnext := hrest (run ++ [g])
      simp only [List.flatten_append, List.flatten_cons, List.flatten_nil, List.append_nil,
        List.length_append, List.length_cons, List.length_nil] at hnil hone hnext ⊢
      rw [packGroups]
      split_ifs with h1 h2 h3 h4
      · simp only [h1, List.flatten_nil, List.length_nil]
        omega
      · simp only [packSeg, List.length_append, List.length_cons]
        omega
      · simp only [writeFF, List.length_append, List.length_cons, List.flatten_append,
          List.flatten_cons, List.flatten_nil, List.length_nil]
        omega
      · omega
      · have hpos := List.length_pos_iff.mpr h1
        simp only [writeFF, packSeg, List.length_append, List.length_cons]
        omega

/-- **Packing adds at most a quarter.** -/
theorem length_spack_le (b : Bytes) : (spack b).length ≤ 10 * (b.length / 8 + 1) := by
  obtain ⟨hlen, hall⟩ := length_groups b
  have h := length_packGroups (groups b) [] hall
  simp only [List.flatten_nil, List.length_nil] at h
  exact h.trans (by omega)

theorem length_words_le (next : ℕ) (fields : List (ℕ × Option Field)) :
    (words next fields).length ≤ 2 * fields.length := by
  induction fields generalizing next with
  | nil => rfl
  | cons f fields ih =>
      obtain ⟨tag, f⟩ := f
      cases f with
      | none =>
          rw [words, List.length_cons]
          exact (ih next).trans (by omega)
      | some f =>
          have := ih (tag + 1)
          rw [words, List.length_append, List.length_cons, List.length_cons]
          split
          · simp only [List.length_singleton]
            omega
          · simp only [List.length_nil]
            omega

/-- The length of all data parts of a struct. -/
def dataLength (fields : List (ℕ × Option Field)) : ℕ :=
  (fields.map fun f => (f.2.elim [] Field.bytes).length).sum

@[simp] theorem dataLength_nil : dataLength [] = 0 := rfl

@[simp] theorem dataLength_none (t : ℕ) (fields : List (ℕ × Option Field)) :
    dataLength ((t, none) :: fields) = dataLength fields := by simp [dataLength]

@[simp] theorem dataLength_some (t : ℕ) (f : Field) (fields : List (ℕ × Option Field)) :
    dataLength ((t, some f) :: fields) = f.bytes.length + dataLength fields := by simp [dataLength]

/-- A field that may be absent. -/
theorem dataLength_map_le {α : Type*} {o : Option α} {f : α → Field} {n : ℕ}
    (h : ∀ a, o = some a → (f a).bytes.length ≤ n) (t : ℕ) (fields : List (ℕ × Option Field)) :
    dataLength ((t, o.map f) :: fields) ≤ n + dataLength fields := by
  cases o with
  | none =>
      rw [Option.map_none, dataLength_none]
      exact Nat.le_add_left _ _
  | some a =>
      rw [Option.map_some, dataLength_some]
      exact Nat.add_le_add_right (h a rfl) _

/-- The length of a struct, from that of the data parts. -/
theorem length_encodeStruct_le (fields : List (ℕ × Option Field)) :
    (encodeStruct fields).length ≤ 2 + 4 * fields.length + dataLength fields := by
  have hwords := length_words_le 0 fields
  simp only [encodeStruct, List.length_append, length_leBytes, List.length_flatMap, List.map_const',
    List.sum_replicate_nat, dataLength]
  omega

theorem length_bytes_encodeInteger_le (v : ℤ) : (encodeInteger v).bytes.length ≤ 12 := by
  unfold encodeInteger
  dsimp only
  split
  · split
    · exact Nat.zero_le _
    · simp [Field.bytes]
  · simp [Field.bytes]

/-- An integer that may be absent. -/
theorem dataLength_integer_le (o : Option ℤ) (t : ℕ) (fields : List (ℕ × Option Field)) :
    dataLength ((t, o.map encodeInteger) :: fields) ≤ 12 + dataLength fields :=
  dataLength_map_le (fun v _ => length_bytes_encodeInteger_le v) t fields

@[simp] theorem length_bytes_encodeObject (b : Bytes) : (encodeObject b).bytes.length = 4 + b.length := by
  simp [encodeObject, Field.bytes]

@[simp] theorem length_bytes_encodeArray (elems : List Bytes) :
    (encodeArray elems).bytes.length = 4 + (elems.map fun e => 4 + e.length).sum := by
  simp [encodeArray, Field.bytes, List.length_flatMap]

/-- A field's data part is in the encoding of its struct. -/
theorem bytes_infix_encodeStruct {fields : List (ℕ × Option Field)} {t : ℕ} {f : Field}
    (h : (t, some f) ∈ fields) : f.bytes <:+: encodeStruct fields := by
  obtain ⟨pre, post, rfl⟩ := List.append_of_mem h
  refine ⟨leBytes 2 (words 0 (pre ++ (t, some f) :: post)).length
    ++ (words 0 (pre ++ (t, some f) :: post)).flatMap (leBytes 2)
    ++ pre.flatMap fun f => f.2.elim [] Field.bytes, post.flatMap fun f => f.2.elim [] Field.bytes, ?_⟩
  simp [encodeStruct, List.append_assoc]

/-- An object is in the data part of its field. -/
theorem infix_encodeObject (b : Bytes) : b <:+: (encodeObject b).bytes :=
  (List.suffix_append _ _).isInfix

/-- The elements of an array are all in its data part. -/
theorem sum_notzero_le_encodeArray (elems : List Bytes) :
    (elems.map notzero).sum ≤ notzero (encodeArray elems).bytes := by
  suffices h : (elems.map notzero).sum ≤ notzero (elems.flatMap fillSize) by
    refine h.trans (notzero_le_of_isInfix ?_)
    exact (List.suffix_append _ _).isInfix
  induction elems with
  | nil => exact le_rfl
  | cons e es ih =>
      simp only [List.map_cons, List.sum_cons, List.flatMap_cons, notzero_append, fillSize]
      omega

end FrameSync.Sproto
