import FrameSync.Foundations.Search
import FrameSync.Wire.Sproto
import Mathlib.Data.List.Induction

/-! # Encoding and decoding by a schema

`sproto_encode` and `sproto_decode` of `sproto.c` with the callbacks of `lsproto.c`, for any schema. A Lua
table is a list of fields by tag, a type is known by its index, and a pointer into the input is what
lies in memory from there on, next to the length that the code believes in. What is encoded decodes to the
same table (`decode_encode`). A length is added to 4 in 32 bits, so a length close to `2^32` passes the test;
yet nothing outside the input is read, as long as no type has an array of integers or booleans
(`decode_inBounds_iff`). -/

namespace FrameSync.Sproto

/-! ## Schemas -/

/-- The type of a field, `SPROTO_TINTEGER` and so on. Decimals and maps do not occur. -/
inductive Kind
  /-- `integer` -/
  | integer
  /-- `boolean` -/
  | boolean
  /-- `string` -/
  | string
  /-- A struct, of the type with this index. -/
  | struct (t : ℕ)
  deriving Repr, DecidableEq

/-- `struct field` -/
structure FieldDesc where
  /-- The tag, by which the field is known on the wire. -/
  tag : ℕ
  /-- What the field holds. -/
  kind : Kind
  /-- `SPROTO_TARRAY` -/
  array : Bool := false
  deriving Repr, DecidableEq

/-- `struct sproto_type`. `import_type` refuses a type whose tags do not ascend, and a tag is a number that
fits into the word of a field. -/
structure SprotoType where
  /-- The fields. -/
  fields : List FieldDesc
  /-- "tag must in ascending order" -/
  ascending : fields.Pairwise fun f g => f.tag < g.tag
  /-- A tag is stored in a word. -/
  small : ∀ f ∈ fields, f.tag < 0x7fff

/-- A list of types, by index. -/
abbrev Schema := ℕ → SprotoType

/-- `base`: the first tag, if the tags have no gap. -/
def SprotoType.base (st : SprotoType) : Option ℕ :=
  st.fields.head?.bind fun first =>
    st.fields.getLast?.bind fun last =>
      if last.tag - first.tag + 1 = st.fields.length then some first.tag else none

/-- `findtag` -/
def SprotoType.findtag (st : SprotoType) (tag : ℕ) : Option FieldDesc :=
  match st.base with
  | some base => if tag < base then none else st.fields[tag - base]?
  | none => Search.search FieldDesc.tag st.fields tag

/-- Tags that ascend do so by at least one. -/
theorem tag_add_le {fields : List FieldDesc} (h : fields.Pairwise fun f g => f.tag < g.tag) {i j : ℕ}
    {f g : FieldDesc} (hij : i ≤ j) (hf : fields[i]? = some f) (hg : fields[j]? = some g) :
    f.tag + (j - i) ≤ g.tag := by
  obtain ⟨k, rfl⟩ := Nat.exists_eq_add_of_le hij
  induction k generalizing g with
  | zero =>
      obtain rfl := Option.some.inj (hf.symm.trans hg)
      omega
  | succ k ih =>
      obtain ⟨hlt, -⟩ := List.getElem?_eq_some_iff.mp hg
      have hlast : i + k < fields.length := by omega
      have hbefore := ih (Nat.le_add_right i k) (List.getElem?_eq_getElem hlast)
      have hstep : fields[i + k].tag < g.tag := by
        obtain ⟨-, rfl⟩ := List.getElem?_eq_some_iff.mp hg
        exact List.pairwise_iff_getElem.mp h (i + k) (i + (k + 1)) hlast hlt (by omega)
      omega

/-- **`findtag` finds the field of a tag**, by its index or by binary search. -/
theorem SprotoType.findtag_eq_some {st : SprotoType} {tag : ℕ} {f : FieldDesc} :
    st.findtag tag = some f ↔ f ∈ st.fields ∧ f.tag = tag := by
  rw [findtag]
  cases hbase : st.base with
  | none => exact Search.search_eq_some st.ascending
  | some base =>
      obtain ⟨first, hfirst, hbase⟩ := Option.bind_eq_some_iff.mp hbase
      obtain ⟨last, hlast, hbase⟩ := Option.bind_eq_some_iff.mp hbase
      obtain ⟨hcount, hbase⟩ := Option.ite_none_right_eq_some.mp hbase
      obtain rfl := Option.some.inj hbase
      rw [List.head?_eq_getElem?] at hfirst
      rw [List.getLast?_eq_getElem?] at hlast
      -- without a gap the field at place `i` has the tag `first.tag + i`
      have hplace : ∀ i g, st.fields[i]? = some g → g.tag = first.tag + i := by
        intro i g hg
        obtain ⟨hi, -⟩ := List.getElem?_eq_some_iff.mp hg
        have hup := tag_add_le st.ascending (Nat.zero_le i) hfirst hg
        have hdown := tag_add_le st.ascending (Nat.le_sub_one_of_lt hi) hg hlast
        omega
      dsimp only
      constructor
      · intro h
        obtain ⟨hle, hget⟩ := Option.ite_none_left_eq_some.mp h
        have htag := hplace _ _ hget
        exact ⟨List.mem_of_getElem? hget, by omega⟩
      · rintro ⟨hf, rfl⟩
        obtain ⟨i, hi⟩ := List.mem_iff_getElem?.mp hf
        have htag := hplace i f hi
        rw [if_neg (by omega), htag, Nat.add_sub_cancel_left]
        exact hi

/-- A value of a Lua table, as far as a schema can describe it. A table is the list of its fields by tag. -/
inductive Value
  /-- An integer. -/
  | integer (v : ℤ)
  /-- A boolean. -/
  | boolean (b : Bool)
  /-- A string. -/
  | string (s : Bytes)
  /-- A table with fields. -/
  | struct (fields : List (ℕ × Value))
  /-- A sequence. -/
  | array (elems : List Value)
  deriving Repr

/-! ## Encoding -/

/-- The callback `encode` hands over 4 bytes, `vh == 0 || vh == -1`. -/
abbrev Fits (v : ℤ) : Prop := -2 ^ 31 ≤ v ∧ v < 2 ^ 31

/-- `uint32_to_uint64`: the four high bytes of a number whose fourth byte is `d`. -/
def signBytes (d : UInt8) : Bytes := List.replicate 4 (if 0x80 ≤ d.toNat then 0xff else 0)

/-- The numbers written so far, four bytes each, are moved apart. -/
def rearrange : Bytes → Bytes
  | a :: b :: c :: d :: rest => [a, b, c, d] ++ signBytes d ++ rearrange rest
  | rest => rest

/-- One turn of `encode_integer_array`, with `intlen = 8` as a flag. The first number that needs eight bytes
makes all of them eight bytes long. -/
def pushInteger (s : Bool × Bytes) (v : ℤ) : Bool × Bytes :=
  if Fits v then
    let word := leBytes 4 (v % 2 ^ 32).toNat
    (s.1, s.2 ++ word ++ if s.1 then signBytes (word.getLastD 0) else [])
  else (true, (if s.1 then s.2 else rearrange s.2) ++ leBytes 8 (v % 2 ^ 64).toNat)

/-- `encode_integer_array` -/
def encodeIntegers (vs : List ℤ) : Bytes :=
  let s := vs.foldl pushInteger (false, [])
  if s.2 = [] then [] else (if s.1 then 8 else 4) :: s.2

/-- The callback `encode` for a value that is there. It raises on a value of the wrong type. -/
def encodeValue (enc : ℕ → List (ℕ × Value) → Option Bytes) : Kind → Value → Option Field
  | .integer, .integer v => some (encodeInteger v)
  | .boolean, .boolean b => some (encodeBoolean b)
  | .string, .string s => some (encodeObject s)
  | .struct t, .struct fields => (enc t fields).map encodeObject
  | _, _ => none

/-- The element of an array of integers. -/
def Value.toInteger? : Value → Option ℤ
  | .integer v => some v
  | _ => none

/-- The element of an array of booleans, as its byte. -/
def Value.toByte? : Value → Option UInt8
  | .boolean b => some (if b then 1 else 0)
  | _ => none

/-- The element of an array of strings or structs, as its bytes. -/
def encodeElem (enc : ℕ → List (ℕ × Value) → Option Bytes) : Kind → Value → Option Bytes
  | .string, .string s => some s
  | .struct t, .struct fields => enc t fields
  | _, _ => none

/-- `encode_array`: the data part. -/
def encodeElems (enc : ℕ → List (ℕ × Value) → Option Bytes) (kind : Kind) (elems : List Value) :
    Option Bytes :=
  match kind with
  | .integer => (elems.mapM Value.toInteger?).map encodeIntegers
  | .boolean => elems.mapM Value.toByte?
  | .string | .struct _ => (elems.mapM (encodeElem enc kind)).map fun bs => bs.flatMap fillSize

/-- One field of a table that is there. -/
def encodeField (enc : ℕ → List (ℕ × Value) → Option Bytes) (f : FieldDesc) (v : Value) : Option Field :=
  if f.array then
    match v with
    | .array elems => (encodeElems enc f.kind elems).map fun b => .data (fillSize b)
    | _ => none
  else encodeValue enc f.kind v

/-- One field of a table, left out where the table does not have it. -/
def encodeEntry (enc : ℕ → List (ℕ × Value) → Option Bytes) (f : FieldDesc) :
    Option Value → Option (ℕ × Option Field)
  | none => some (f.tag, none)
  | some v => (encodeField enc f v).map fun x => (f.tag, some x)

/-- `sproto_encode` of a table, with `deep` more levels up to `ENCODE_DEEPLEVEL`. -/
def encode (S : Schema) : ℕ → ℕ → List (ℕ × Value) → Option Bytes
  | 0, t, _ => if (S t).fields = [] then some (encodeStruct []) else none
  | deep + 1, t, table =>
      ((S t).fields.mapM fun f : FieldDesc => encodeEntry (encode S deep) f (table.lookup f.tag)).map
        encodeStruct

/-! ## Decoding -/

/-- How decoding fails. -/
inductive DecodeError
  /-- `sproto_decode` returns -1. -/
  | malformed
  /-- The callback raises an error of Lua. -/
  | raised
  /-- A byte is read that does not belong to the input. -/
  | outOfBounds
  deriving Repr, DecidableEq

/-- The number that bytes stand for, least significant first. -/
def ofLE (bytes : Bytes) : ℕ := bytes.foldr (fun b n => b.toNat + 256 * n) 0

/-- `toword`, `todword`: `n` bytes in memory. -/
def readLE (n : ℕ) (src : Bytes) : Except DecodeError ℕ :=
  if src.length < n then .error .outOfBounds else .ok (ofLE (src.take n))

/-- `expand64` -/
def expand64 (v : ℕ) : ℕ := if 2 ^ 31 ≤ v then v + (2 ^ 64 - 2 ^ 32) else v

/-- A `uint32_t` as an `int`. -/
def toInt32 (v : ℕ) : ℤ := if v < 2 ^ 31 then v else v - 2 ^ 32

/-- A `uint64_t` as a `lua_Integer`. -/
def toInt64 (v : ℕ) : ℤ := if v < 2 ^ 63 then v else v - 2 ^ 64

/-- `args->value` with `args->length`. -/
inductive Arg
  /-- A number of 64 bits. -/
  | word (v : ℕ)
  /-- A pointer and a length. -/
  | bytes (src : Bytes) (length : ℤ)
  /-- The null pointer of an empty array. -/
  | empty

/-- What decoding gives: the fields and how many bytes are left. -/
abbrev Decoded := Except DecodeError (List (ℕ × Value) × ℤ)

/-- The callback `decode`, with `dec` for the structs inside. -/
def callback (dec : ℕ → Bytes → ℤ → Decoded) : Kind → Arg → Except DecodeError Value
  | _, .empty => .ok (.array [])
  | .integer, .word v => .ok (.integer (toInt64 v))
  | .boolean, .word v => .ok (.boolean (v % 2 ^ 32 ≠ 0))
  | .string, .bytes src length =>
      -- `lua_pushlstring` takes a negative length for a huge one
      if length < 0 then .error .raised
      else if (src.length : ℤ) < length then .error .outOfBounds
      else .ok (.string (src.take length.toNat))
  | .struct t, .bytes src length => do
      let r ← dec t src length
      if r.2 = length then .ok (.struct r.1) else .error .malformed
  | _, _ => .error .malformed

/-- The numbers of an array, each of `width` bytes. -/
def decodeInts (call : Arg → Except DecodeError Value) (width : ℕ) :
    ℕ → Bytes → Except DecodeError (List Value)
  | 0, _ => .ok []
  | n + 1, src => do
      let v ← readLE width src
      let x ← call (.word (if width = 4 then expand64 v else v))
      let xs ← decodeInts call width n (src.drop width)
      .ok (x :: xs)

/-- `decode_array_object`. Each round takes four bytes or more. -/
def decodeObjects (call : Arg → Except DecodeError Value) : ℕ → Bytes → ℤ → Except DecodeError (List Value)
  | 0, _, _ => .ok []
  | fuel + 1, src, sz =>
      if sz ≤ 0 then .ok []
      else if sz < 4 then .error .malformed
      else do
        let hsz ← readLE 4 src
        if sz - 4 < hsz then .error .malformed
        else do
          let x ← call (.bytes (src.drop 4) hsz)
          let xs ← decodeObjects call fuel (src.drop (4 + hsz)) (sz - 4 - hsz)
          .ok (x :: xs)

/-- The elements of an array whose data part has `sz` bytes. -/
def decodeElems (call : Arg → Except DecodeError Value) (sz : ℕ) (src : Bytes) :
    Kind → Except DecodeError (List Value)
  | .integer => do
      let len ← readLE 1 src
      if (len = 4 ∨ len = 8) ∧ (sz - 1) % len = 0 then decodeInts call len ((sz - 1) / len) (src.drop 1)
      else .error .malformed
  | .boolean => decodeInts call 1 sz src
  | .string | .struct _ => decodeObjects call sz src (toInt32 sz)

/-- `decode_array`. The field is set when the callback is called for the first time. -/
def decodeArray (call : Arg → Except DecodeError Value) (kind : Kind) (src : Bytes) :
    Except DecodeError (Option Value) := do
  let sz ← readLE 4 src
  if sz = 0 then (call .empty).map some
  else (decodeElems call sz (src.drop 4) kind).map fun xs => if xs = [] then none else some (.array xs)

/-- A field whose value is in the data part. -/
def decodeData (call : Kind → Arg → Except DecodeError Value) (f : FieldDesc) (src : Bytes) :
    Except DecodeError (Option Value) :=
  if f.array then decodeArray (call f.kind) f.kind src
  else
    match f.kind with
    | .integer => do
        let sz ← readLE 4 src
        if sz = 4 then do
          let v ← readLE 4 (src.drop 4)
          (call .integer (.word (expand64 v))).map some
        else if sz = 8 then do
          let v ← readLE 8 (src.drop 4)
          (call .integer (.word v)).map some
        else .error .malformed
    | .boolean => .error .malformed
    | .string | .struct _ => do
        let sz ← readLE 4 src
        (call f.kind (.bytes (src.drop 4) (toInt32 sz))).map some

/-- A field whose value is in its word. -/
def decodeSmall (call : Kind → Arg → Except DecodeError Value) (f : FieldDesc) (v : ℕ) :
    Except DecodeError (Option Value) :=
  if f.array then .error .malformed
  else
    match f.kind with
    | .integer | .boolean => (call f.kind (.word v)).map some
    | .string | .struct _ => .error .malformed

/-- A field that the type does not have is skipped. -/
def decodeKnown (dec : FieldDesc → Except DecodeError (Option Value)) :
    Option FieldDesc → Except DecodeError (Option Value)
  | none => .ok none
  | some f => dec f

/-- The callback's value is set in the table. -/
def setField (tag : ℕ) (x : Option Value) (r : List (ℕ × Value) × ℤ) : List (ℕ × Value) × ℤ :=
  ((x.map (tag, ·)).toList ++ r.1, r.2)

/-- The loop of `sproto_decode` over `n` words: `tag` is the next tag, `stream` points to the words and
`datastream` to the data, of which `size` bytes are left. -/
def decodeFields (call : Kind → Arg → Except DecodeError Value) (findtag : ℕ → Option FieldDesc) :
    ℕ → ℕ → Bytes → Bytes → ℤ → Decoded
  | 0, _, _, _, size => .ok ([], size)
  | n + 1, tag, stream, datastream, size => do
      let value ← readLE 2 stream
      if value % 2 = 1 then decodeFields call findtag n (tag + 1 + value / 2) (stream.drop 2) datastream size
      else if value = 0 then
        if size < 4 then .error .malformed
        else do
          let sz ← readLE 4 datastream
          -- `sz + SIZEOF_LENGTH` is a `uint32_t`
          let step : ℕ := (sz + 4) % 2 ^ 32
          if size < step then .error .malformed
          else do
            let x ← decodeKnown (fun f => decodeData call f datastream) (findtag tag)
            let r ← decodeFields call findtag n (tag + 1) (stream.drop 2) (datastream.drop step) (size - step)
            .ok (setField tag x r)
      else do
        let x ← decodeKnown (fun f => decodeSmall call f (value / 2 - 1)) (findtag tag)
        let r ← decodeFields call findtag n (tag + 1) (stream.drop 2) datastream size
        .ok (setField tag x r)

/-- `sproto_decode` but for the callback: the fields, and how many bytes were used. -/
def decodeWith (call : Kind → Arg → Except DecodeError Value) (st : SprotoType) (src : Bytes) (size : ℤ) :
    Decoded :=
  if size < 2 then .error .malformed
  else do
    let fn ← readLE 2 src
    if size - 2 < 2 * fn then .error .malformed
    else do
      let r ← decodeFields call st.findtag fn 0 (src.drop 2) (src.drop (2 + 2 * fn)) (size - 2 - 2 * fn)
      .ok (r.1, size - r.2)

/-- `sproto_decode` of `size` bytes at `src`, with `deep` more levels up to `ENCODE_DEEPLEVEL`, at which the
callback raises. -/
def decode (S : Schema) : ℕ → ℕ → Bytes → ℤ → Decoded
  | 0, t, src, size => decodeWith (fun _ _ => .error .raised) (S t) src size
  | deep + 1, t, src, size => decodeWith (callback (decode S deep)) (S t) src size

/-! ## Numbers -/

@[simp] theorem ok_bind {α β : Type} (a : α) (f : α → Except DecodeError β) : (Except.ok a >>= f) = f a := rfl

theorem ofLE_leBytes (n v : ℕ) : ofLE (leBytes n v) = v % 256 ^ n := by
  induction n generalizing v with
  | zero => rw [pow_zero, Nat.mod_one]; rfl
  | succ n ih =>
      have hcons : leBytes (n + 1) v = UInt8.ofNat v :: leBytes n (v / 256) := by
        simp only [leBytes, List.range_succ_eq_map, List.map_cons, List.map_map, pow_zero, Nat.div_one]
        congr 1
        refine List.map_congr_left fun i _ => ?_
        rw [Function.comp_apply, Nat.succ_eq_add_one, pow_succ', Nat.div_div_eq_div_mul]
      have hmod : v % (256 * 256 ^ n) = v % 256 + 256 * (v / 256 % 256 ^ n) := Nat.mod_mul
      rw [hcons, ofLE, List.foldr_cons, ← ofLE, ih, UInt8.toNat_ofNat', pow_succ' 256 n, hmod]

theorem ofLE_lt (bytes : Bytes) : ofLE bytes < 256 ^ bytes.length := by
  induction bytes with
  | nil => exact Nat.one_pos
  | cons b bytes ih =>
      have hb := b.toNat_lt
      rw [ofLE, List.foldr_cons, ← ofLE, List.length_cons, pow_succ']
      omega

theorem readLE_lt {n v : ℕ} {src : Bytes} (h : readLE n src = .ok v) : v < 256 ^ n := by
  rw [readLE] at h
  split_ifs at h with hshort
  obtain rfl := Except.ok.inj h
  have hlt := ofLE_lt (src.take n)
  rwa [List.length_take, min_eq_left (by omega)] at hlt

/-- What was written is read. -/
theorem readLE_append {n v : ℕ} (hv : v < 256 ^ n) (rest : Bytes) :
    readLE n (leBytes n v ++ rest) = .ok v := by
  rw [readLE, if_neg (by rw [List.length_append, length_leBytes]; omega),
    List.take_left' (length_leBytes n v), ofLE_leBytes, Nat.mod_eq_of_lt hv]

theorem toInt64_expand64 {v : ℤ} (h : Fits v) : toInt64 (expand64 (v % 2 ^ 32).toNat) = v := by
  obtain ⟨hlo, hhi⟩ := h
  rw [expand64, toInt64]
  split_ifs <;> omega

theorem toInt64_mod {v : ℤ} (hlo : -2 ^ 63 ≤ v) (hhi : v < 2 ^ 63) : toInt64 (v % 2 ^ 64).toNat = v := by
  rw [toInt64]
  split_ifs <;> omega

/-! ## What was encoded is decoded -/

variable {call : Kind → Arg → Except DecodeError Value}

/-- The field `x` of a struct is read as `v`. -/
def Field.Decodes (call : Kind → Arg → Except DecodeError Value) (f : FieldDesc) (v : Value) : Field → Prop
  | .small n => n < 0x7fff ∧ decodeSmall call f n = .ok (some v)
  | .data b => ∃ payload, b = fillSize payload ∧ payload.length + 4 < 2 ^ 32 ∧
      ∀ rest, decodeData call f (b ++ rest) = .ok (some v)

/-- The words of fields and their data are read field by field. -/
theorem decodeFields_words {findtag : ℕ → Option FieldDesc} (table : ℕ → Option Value) (rest more : Bytes)
    {fields : List (ℕ × Option Field)} {next : ℕ} {size : ℤ}
    (hsorted : (fields.map Prod.fst).Pairwise (· < ·)) (hnext : ∀ x ∈ fields, next ≤ x.1)
    (hsmall : ∀ x ∈ fields, x.1 < 0x7fff)
    (hfields : ∀ x ∈ fields, ∀ y, x.2 = some y →
      ∃ f v, findtag x.1 = some f ∧ table x.1 = some v ∧ y.Decodes call f v)
    (hsize : (dataLength fields : ℤ) ≤ size) :
    decodeFields call findtag (words next fields).length next
        ((words next fields).flatMap (leBytes 2) ++ more)
        ((fields.flatMap fun x => x.2.elim [] Field.bytes) ++ rest) size =
      .ok (fields.filterMap fun x => x.2.bind fun _ => (table x.1).map (x.1, ·), size - dataLength fields) := by
  induction fields generalizing next size with
  | nil => simp [words, decodeFields]
  | cons x fields ih =>
      obtain ⟨tag, y⟩ := x
      have hle : next ≤ tag := hnext _ List.mem_cons_self
      have hlt : tag < 0x7fff := hsmall _ List.mem_cons_self
      rw [List.map_cons, List.pairwise_cons] at hsorted
      have hrest := fun x hx => hfields x (List.mem_cons_of_mem _ hx)
      have hsmall' := fun x hx => hsmall x (List.mem_cons_of_mem _ hx)
      cases y with
      | none =>
          rw [dataLength_none] at hsize ⊢
          have hrec := @ih next size hsorted.2 (fun x hx => hnext x (List.mem_cons_of_mem _ hx)) hsmall'
            hrest hsize
          rw [words, List.flatMap_cons]
          exact hrec
      | some y =>
          rw [dataLength_some] at hsize ⊢
          have htail : ∀ x ∈ fields, tag + 1 ≤ x.1 :=
            fun x hx => hsorted.1 x.1 (List.mem_map_of_mem hx)
          obtain ⟨f, v, hf, hv, hdec⟩ := hfields _ List.mem_cons_self y rfl
          have hrec := @ih (tag + 1) (size - y.bytes.length) hsorted.2 htail hsmall' hrest
            (by push_cast at hsize; omega)
          -- the words of the field and of those after it, once the gap is skipped
          have hword : decodeFields call findtag (y.word :: words (tag + 1) fields).length tag
              ((y.word :: words (tag + 1) fields).flatMap (leBytes 2) ++ more)
              (y.bytes ++ ((fields.flatMap fun x => x.2.elim [] Field.bytes) ++ rest)) size =
              .ok ((tag, v) :: fields.filterMap fun x => x.2.bind fun _ => (table x.1).map (x.1, ·),
                size - (y.bytes.length + dataLength fields : ℕ)) := by
            have hbytes : y.word < 256 ^ 2 := by
              cases y with
              | small n =>
                  have hn := hdec.1
                  rw [Field.word]
                  omega
              | data b => exact Nat.pow_pos (by decide)
            rw [List.flatMap_cons, List.append_assoc, List.length_cons, decodeFields, readLE_append hbytes]
            change (if y.word % 2 = 1 then _ else _) = _
            rw [List.drop_left' (length_leBytes 2 _)]
            cases y with
            | small n =>
                obtain ⟨-, hsmallDec⟩ := hdec
                rw [Field.word, if_neg (by omega), if_neg (by omega), hf]
                have hv' : 2 * (n + 1) / 2 - 1 = n := by omega
                rw [hv', decodeKnown, hsmallDec]
                simp only [Field.bytes, List.length_nil, Nat.cast_zero, sub_zero, List.nil_append, Nat.zero_add]
                  at hrec ⊢
                change (decodeFields call findtag _ _ _ _ _ >>= _) = _
                rw [hrec]
                simp only [setField, Option.map_some, Option.toList_some]
                rfl
            | data b =>
                obtain ⟨payload, rfl, hlong, hdata⟩ := hdec
                have hlength : (fillSize payload).length = payload.length + 4 := by
                  rw [length_fillSize, Nat.add_comm]
                simp only [Field.bytes, hlength] at hrec ⊢ hsize
                have hsz : readLE 4 (fillSize payload ++
                    ((fields.flatMap fun x => x.2.elim [] Field.bytes) ++ rest)) = .ok payload.length := by
                  rw [fillSize, List.append_assoc]
                  exact readLE_append (by omega) _
                rw [Field.word, if_neg (by decide), if_pos rfl, if_neg (by push_cast at hsize; omega), hsz]
                change (if size < ((payload.length + 4) % 2 ^ 32 : ℕ) then _ else _) = _
                rw [Nat.mod_eq_of_lt hlong, if_neg (by push_cast at hsize; omega), hf, decodeKnown, hdata,
                  List.drop_left' hlength]
                change (decodeFields call findtag _ _ _ _ _ >>= _) = _
                rw [hrec]
                have hleft : size - ((payload.length + 4 : ℕ) : ℤ) - dataLength fields =
                    size - ((payload.length + 4 + dataLength fields : ℕ) : ℤ) := by
                  push_cast
                  omega
                simp only [setField, Option.map_some, Option.toList_some, hleft]
                rfl
          have hresult : List.filterMap (fun x => x.2.bind fun _ => (table x.1).map (x.1, ·))
              ((tag, some y) :: fields) =
                (tag, v) :: fields.filterMap fun x => x.2.bind fun _ => (table x.1).map (x.1, ·) := by
            rw [List.filterMap_cons, Option.bind_some, hv, Option.map_some]
          rw [hresult, words, List.flatMap_cons, List.append_assoc]
          by_cases hgap : next < tag
          · have hodd : 2 * (tag - next - 1) + 1 < 256 ^ 2 := by omega
            have htag : next + 1 + (2 * (tag - next - 1) + 1) / 2 = tag := by omega
            rw [if_pos hgap, List.singleton_append, List.flatMap_cons, List.append_assoc, List.length_cons,
              decodeFields, readLE_append hodd]
            change (if (2 * (tag - next - 1) + 1) % 2 = 1 then _ else _) = _
            rw [if_pos (by omega), List.drop_left' (length_leBytes 2 _), htag]
            exact hword
          · obtain rfl : tag = next := by omega
            rw [if_neg hgap, List.nil_append]
            exact hword

/-- No more words than can be counted. -/
theorem length_words_lt {st : SprotoType} {fields : List (ℕ × Option Field)} (next : ℕ)
    (h : fields.length ≤ st.fields.length) : (words next fields).length < 256 ^ 2 := by
  have hwords := length_words_le next fields
  have hcount : st.fields.length ≤ 0x7fff := by
    by_contra hmany
    have hlast : st.fields.length - 1 < st.fields.length := by omega
    have hfirst : 0 < st.fields.length := by omega
    have hle := tag_add_le st.ascending (Nat.zero_le (st.fields.length - 1))
      (List.getElem?_eq_getElem hfirst) (List.getElem?_eq_getElem hlast)
    have htag := st.small _ (List.getElem_mem hlast)
    omega
  omega

/-- **A struct that was encoded is decoded**, field by field, whatever comes after it. -/
theorem decodeWith_encodeStruct {st : SprotoType} (table : ℕ → Option Value) {fields : List (ℕ × Option Field)}
    {size : ℤ} (rest : Bytes) (htags : fields.map Prod.fst = st.fields.map FieldDesc.tag)
    (hfields : ∀ x ∈ fields, ∀ y, x.2 = some y →
      ∃ f v, st.findtag x.1 = some f ∧ table x.1 = some v ∧ y.Decodes call f v)
    (hsize : ((encodeStruct fields).length : ℤ) ≤ size) :
    decodeWith call st (encodeStruct fields ++ rest) size =
      .ok (fields.filterMap fun x => x.2.bind fun _ => (table x.1).map (x.1, ·),
        (encodeStruct fields).length) := by
  have hlength : fields.length = st.fields.length := by
    have h := congrArg List.length htags
    rwa [List.length_map, List.length_map] at h
  have hsmall : ∀ x ∈ fields, x.1 < 0x7fff := by
    intro x hx
    have hmem : x.1 ∈ st.fields.map FieldDesc.tag := htags ▸ List.mem_map_of_mem hx
    obtain ⟨f, hf, heq⟩ := List.mem_map.mp hmem
    exact heq ▸ st.small f hf
  have hsorted : (fields.map Prod.fst).Pairwise (· < ·) := by
    rw [htags]
    exact List.pairwise_map.mpr st.ascending
  have hcount := length_words_lt 0 hlength.le
  have hstruct : (encodeStruct fields).length = 2 + 2 * (words 0 fields).length + dataLength fields := by
    simp only [encodeStruct, List.length_append, length_leBytes, List.length_flatMap, List.map_const',
      List.sum_replicate_nat, dataLength]
    omega
  have hwords : ((words 0 fields).flatMap (leBytes 2)).length = 2 * (words 0 fields).length := by
    simp only [List.length_flatMap, length_leBytes, List.map_const', List.sum_replicate_nat]
    omega
  rw [hstruct] at hsize ⊢
  have hread : readLE 2 (encodeStruct fields ++ rest) = .ok (words 0 fields).length := by
    rw [encodeStruct, List.append_assoc, List.append_assoc]
    exact readLE_append hcount _
  have hstream : (encodeStruct fields ++ rest).drop 2 = (words 0 fields).flatMap (leBytes 2) ++
      ((fields.flatMap fun x => x.2.elim [] Field.bytes) ++ rest) := by
    rw [encodeStruct, List.append_assoc, List.append_assoc, List.drop_left' (length_leBytes 2 _)]
  have hdata : (encodeStruct fields ++ rest).drop (2 + 2 * (words 0 fields).length) =
      (fields.flatMap fun x => x.2.elim [] Field.bytes) ++ rest := by
    rw [← List.drop_drop, hstream, List.drop_left' hwords]
  rw [decodeWith, if_neg (by push_cast at hsize; omega), hread]
  change (if size - 2 < 2 * ((words 0 fields).length : ℤ) then _ else _) = _
  rw [if_neg (by push_cast at hsize; omega), hstream, hdata,
    decodeFields_words table rest _ hsorted (fun x _ => Nat.zero_le x.1) hsmall hfields
      (by push_cast at hsize; omega)]
  change Except.ok (_, _) = _
  congr 2
  push_cast
  omega

/-! ## Values -/

theorem ofNat_eq_ofNat {a b : ℕ} (h : a % 256 = b % 256) : UInt8.ofNat a = UInt8.ofNat b := by
  apply UInt8.toNat_inj.mp
  rw [UInt8.toNat_ofNat', UInt8.toNat_ofNat']
  exact h

theorem signBytes_eq (d : UInt8) :
    signBytes d = List.replicate 4 (UInt8.ofNat (if 0x80 ≤ d.toNat then 255 else 0)) := by
  rw [signBytes]
  split_ifs <;> rfl

/-- A number that fits into four bytes is continued by its sign. -/
theorem leBytes_of_fits {v : ℤ} (h : Fits v) : leBytes 8 (v % 2 ^ 64).toNat =
    leBytes 4 (v % 2 ^ 32).toNat ++ signBytes ((leBytes 4 (v % 2 ^ 32).toNat).getLastD 0) := by
  obtain ⟨hlo, hhi⟩ := h
  have height : ∀ u, leBytes 8 u = [UInt8.ofNat u, UInt8.ofNat (u / 256), UInt8.ofNat (u / 256 ^ 2),
      UInt8.ofNat (u / 256 ^ 3), UInt8.ofNat (u / 256 ^ 4), UInt8.ofNat (u / 256 ^ 5),
      UInt8.ofNat (u / 256 ^ 6), UInt8.ofNat (u / 256 ^ 7)] := by
    intro u
    simp [leBytes, List.range_succ]
  have hfour : ∀ w, leBytes 4 w = [UInt8.ofNat w, UInt8.ofNat (w / 256), UInt8.ofNat (w / 256 ^ 2),
      UInt8.ofNat (w / 256 ^ 3)] := by
    intro w
    simp [leBytes, List.range_succ]
  rw [height, hfour]
  simp only [List.getLastD_cons, List.getLastD_nil, signBytes_eq, UInt8.toNat_ofNat', List.replicate,
    List.cons_append,
    List.nil_append, List.cons.injEq, and_true]
  rcases lt_or_ge v 0 with hneg | hpos
  · rw [if_pos (by omega)]
    refine ⟨?_, ?_, ?_, ?_, ?_, ?_, ?_, ?_⟩
    all_goals exact ofNat_eq_ofNat (by omega)
  · rw [if_neg (by omega)]
    refine ⟨?_, ?_, ?_, ?_, ?_, ?_, ?_, ?_⟩
    all_goals exact ofNat_eq_ofNat (by omega)

theorem rearrange_flatMap {vs : List ℤ} (h : ∀ v ∈ vs, Fits v) :
    rearrange (vs.flatMap fun v => leBytes 4 (v % 2 ^ 32).toNat) =
      vs.flatMap fun v => leBytes 8 (v % 2 ^ 64).toNat := by
  induction vs with
  | nil => rfl
  | cons v vs ih =>
      obtain ⟨hv, hvs⟩ := List.forall_mem_cons.mp h
      have hlength : (leBytes 4 (v % 2 ^ 32).toNat).length = 4 := length_leBytes 4 _
      rw [List.flatMap_cons, List.flatMap_cons, ← ih hvs, leBytes_of_fits hv]
      obtain ⟨a, b, c, d, heq⟩ : ∃ a b c d, leBytes 4 (v % 2 ^ 32).toNat = [a, b, c, d] :=
        ⟨_, _, _, _, by simp [leBytes, List.range_succ]; exact ⟨rfl, rfl, rfl, rfl⟩⟩
      rw [heq]
      rfl

/-- **`encode_integer_array`** writes all numbers with four bytes, or all with eight if one needs them. -/
theorem foldl_pushInteger (vs : List ℤ) :
    ((∀ v ∈ vs, Fits v) ∧ vs.foldl pushInteger (false, []) =
        (false, vs.flatMap fun v => leBytes 4 (v % 2 ^ 32).toNat)) ∨
      (¬ (∀ v ∈ vs, Fits v) ∧ vs.foldl pushInteger (false, []) =
        (true, vs.flatMap fun v => leBytes 8 (v % 2 ^ 64).toNat)) := by
  induction vs using List.reverseRecOn with
  | nil => exact Or.inl ⟨fun v hv => absurd hv List.not_mem_nil, rfl⟩
  | append_singleton vs v ih =>
      have hall : (∀ w ∈ vs ++ [v], Fits w) ↔ (∀ w ∈ vs, Fits w) ∧ Fits v := by
        rw [List.forall_mem_append, List.forall_mem_singleton]
      rw [List.foldl_append, List.foldl_cons, List.foldl_nil, List.flatMap_append, List.flatMap_append,
        List.flatMap_singleton, List.flatMap_singleton, hall]
      rcases ih with ⟨hvs, heq⟩ | ⟨hvs, heq⟩
      · rw [heq, pushInteger]
        by_cases hv : Fits v
        · rw [if_pos hv]
          exact Or.inl ⟨⟨hvs, hv⟩, by simp⟩
        · rw [if_neg hv, if_neg Bool.false_ne_true, rearrange_flatMap hvs]
          exact Or.inr ⟨fun h => hv h.2, rfl⟩
      · rw [heq, pushInteger]
        refine Or.inr ⟨fun h => hvs h.1, ?_⟩
        by_cases hv : Fits v
        · rw [if_pos hv, leBytes_of_fits hv]
          simp
        · rw [if_neg hv, if_pos rfl]

/-- The numbers of an array are read one by one. -/
theorem decodeInts_flatMap {call : Arg → Except DecodeError Value} {width : ℕ} {xs : List (ℕ × Value)}
    (rest : Bytes) (hxs : ∀ x ∈ xs, x.1 < 256 ^ width ∧
      call (.word (if width = 4 then expand64 x.1 else x.1)) = .ok x.2) :
    decodeInts call width xs.length (xs.flatMap (fun x => leBytes width x.1) ++ rest) =
      .ok (xs.map Prod.snd) := by
  induction xs with
  | nil => rfl
  | cons x xs ih =>
      obtain ⟨⟨hlt, hx⟩, hxs⟩ := List.forall_mem_cons.mp hxs
      rw [List.length_cons, decodeInts, List.flatMap_cons, List.append_assoc, readLE_append hlt]
      change (call _ >>= _) = _
      rw [hx, List.drop_left' (length_leBytes width _)]
      change (decodeInts call width xs.length _ >>= _) = _
      rw [ih hxs]
      rfl

/-- The strings or structs of an array are read one by one. -/
theorem decodeObjects_flatMap {call : Arg → Except DecodeError Value} {xs : List (Bytes × Value)} {fuel : ℕ}
    (rest : Bytes) (hfuel : xs.length ≤ fuel)
    (hlength : (xs.flatMap fun x => fillSize x.1).length < 2 ^ 31)
    (hxs : ∀ x ∈ xs, ∀ rest, call (.bytes (x.1 ++ rest) x.1.length) = .ok x.2) :
    decodeObjects call fuel ((xs.flatMap fun x => fillSize x.1) ++ rest)
      ((xs.flatMap fun x => fillSize x.1).length : ℕ) = .ok (xs.map Prod.snd) := by
  induction xs generalizing fuel with
  | nil =>
      cases fuel with
      | zero => rfl
      | succ fuel => rfl
  | cons x xs ih =>
      obtain ⟨hx, hxs⟩ := List.forall_mem_cons.mp hxs
      obtain ⟨fuel, rfl⟩ := Nat.exists_eq_succ_of_ne_zero
        (Nat.ne_of_gt (Nat.lt_of_lt_of_le (Nat.succ_pos _) hfuel))
      rw [List.flatMap_cons, List.length_append, length_fillSize] at hlength ⊢
      have hread : readLE 4 (fillSize x.1 ++ ((xs.flatMap fun x => fillSize x.1) ++ rest)) = .ok x.1.length := by
        rw [fillSize, List.append_assoc]
        exact readLE_append (by omega) _
      have hdrop : (fillSize x.1 ++ ((xs.flatMap fun x => fillSize x.1) ++ rest)).drop 4 =
          x.1 ++ ((xs.flatMap fun x => fillSize x.1) ++ rest) := by
        rw [fillSize, List.append_assoc, List.drop_left' (length_leBytes 4 _)]
      have hleft : ((4 + x.1.length + (xs.flatMap fun x => fillSize x.1).length : ℕ) : ℤ) - 4 - x.1.length =
          ((xs.flatMap fun x => fillSize x.1).length : ℕ) := by
        push_cast
        omega
      rw [List.append_assoc, decodeObjects, if_neg (by push_cast; omega), if_neg (by push_cast; omega), hread]
      change (if _ then _ else _) = _
      rw [if_neg (by push_cast; omega), hdrop, hx]
      change (decodeObjects call fuel _ _ >>= _) = _
      rw [hleft, List.drop_left' (length_fillSize x.1),
        ih (Nat.le_of_succ_le_succ hfuel) (by omega) hxs]
      rfl

/-- What a list is mapped to element by element. -/
theorem exists_mapM {α β : Type} {f : α → Option β} {R : β → α → Prop} {l : List α}
    (h : ∀ a ∈ l, ∃ b, f a = some b ∧ R b a) :
    ∃ xs : List (β × α), l.mapM f = some (xs.map Prod.fst) ∧ xs.map Prod.snd = l ∧ ∀ x ∈ xs, R x.1 x.2 := by
  induction l with
  | nil => exact ⟨[], rfl, rfl, fun x hx => absurd hx List.not_mem_nil⟩
  | cons a l ih =>
      obtain ⟨⟨b, hb, hR⟩, hl⟩ := List.forall_mem_cons.mp h
      obtain ⟨xs, hmap, hsnd, hxs⟩ := ih hl
      refine ⟨(b, a) :: xs, ?_, by rw [List.map_cons, hsnd], List.forall_mem_cons.mpr ⟨hR, hxs⟩⟩
      rw [List.mapM_cons, hb, hmap]
      rfl

/-! ## The types of values -/

/-- The value `v` is of the kind `kind`, with `typed` for the structs inside. -/
def HasKind (typed : ℕ → List (ℕ × Value) → Prop) : Kind → Value → Prop
  | .integer, .integer v => -2 ^ 63 ≤ v ∧ v < 2 ^ 63
  | .boolean, .boolean _ => True
  | .string, .string _ => True
  | .struct t, .struct fields => typed t fields
  | _, _ => False

/-- The value `v` belongs into the field `f`. -/
def FieldDesc.Holds (typed : ℕ → List (ℕ × Value) → Prop) (f : FieldDesc) (v : Value) : Prop :=
  if f.array then ∃ elems, v = .array elems ∧ ∀ e ∈ elems, HasKind typed f.kind e else HasKind typed f.kind v

/-- A table of type `t`, with at most `deep` more levels. -/
def Typed (S : Schema) : ℕ → ℕ → List (ℕ × Value) → Prop
  | 0, t, table => (S t).fields = [] ∧ table = []
  | deep + 1, t, table => (table.map Prod.fst).Pairwise (· < ·) ∧
      ∀ x ∈ table, ∃ f ∈ (S t).fields, f.tag = x.1 ∧ f.Holds (Typed S deep) x.2

section RoundTrip

variable {typed : ℕ → List (ℕ × Value) → Prop} {enc : ℕ → List (ℕ × Value) → Option Bytes}
  {dec : ℕ → Bytes → ℤ → Decoded}

/-- Structs of one level less are decoded to what was encoded. -/
def RoundTrips (typed : ℕ → List (ℕ × Value) → Prop) (enc : ℕ → List (ℕ × Value) → Option Bytes)
    (dec : ℕ → Bytes → ℤ → Decoded) : Prop :=
  ∀ t table, typed t table → ∃ bytes, enc t table = some bytes ∧
    (bytes.length < 2 ^ 31 → ∀ rest size, (bytes.length : ℤ) ≤ size →
      dec t (bytes ++ rest) size = .ok (table, bytes.length))

/-- A string or a struct is handed over as its bytes. -/
theorem RoundTrips.elem (h : RoundTrips typed enc dec) {kind : Kind} {v : Value} (hint : kind ≠ .integer)
    (hbool : kind ≠ .boolean) (hv : HasKind typed kind v) :
    ∃ b, encodeElem enc kind v = some b ∧
      (b.length < 2 ^ 31 → ∀ rest, callback dec kind (.bytes (b ++ rest) b.length) = .ok v) := by
  cases kind with
  | integer => exact absurd rfl hint
  | boolean => exact absurd rfl hbool
  | string =>
      cases v with
      | string s =>
          refine ⟨s, rfl, fun _ rest => ?_⟩
          have hle : ¬ ((s ++ rest).length : ℤ) < s.length := by
            rw [List.length_append]
            omega
          rw [callback, if_neg (by omega), if_neg hle, Int.toNat_natCast, List.take_left' rfl]
      | integer | boolean | struct | array => exact hv.elim
  | struct t =>
      cases v with
      | struct fields =>
          obtain ⟨bytes, henc, hdec⟩ := h t fields hv
          refine ⟨bytes, henc, fun hlt rest => ?_⟩
          rw [callback, hdec hlt rest _ le_rfl]
          exact if_pos rfl
      | integer | boolean | string | array => exact hv.elim

theorem decodeArray_nil (kind : Kind) (rest : Bytes) :
    decodeArray (callback dec kind) kind (fillSize [] ++ rest) = .ok (some (.array [])) := by
  have hread : readLE 4 (fillSize [] ++ rest) = .ok 0 := by
    rw [fillSize, List.append_nil, List.length_nil]
    exact readLE_append (by decide) rest
  rw [decodeArray, hread]
  cases kind <;> rfl

theorem decodeArray_fillSize {kind : Kind} {b : Bytes} {xs : List Value} (rest : Bytes) (hb : b ≠ [])
    (hlt : b.length < 2 ^ 31) (hxs : xs ≠ [])
    (hdec : decodeElems (callback dec kind) b.length (b ++ rest) kind = .ok xs) :
    decodeArray (callback dec kind) kind (fillSize b ++ rest) = .ok (some (.array xs)) := by
  have hread : readLE 4 (fillSize b ++ rest) = .ok b.length := by
    rw [fillSize, List.append_assoc]
    exact readLE_append (by omega) _
  have hdrop : (fillSize b ++ rest).drop 4 = b ++ rest := by
    rw [fillSize, List.append_assoc, List.drop_left' (length_leBytes 4 _)]
  rw [decodeArray, hread]
  change (if b.length = 0 then _ else _) = _
  rw [if_neg (by rwa [List.length_eq_zero_iff]), hdrop, hdec]
  change Except.ok (if xs = [] then none else some (Value.array xs)) = _
  rw [if_neg hxs]

/-- Numbers of four bytes or of eight. -/
theorem decodeElems_integers {vs : List ℤ} {width : ℕ} (toNat : ℤ → ℕ) (rest : Bytes)
    (hwidth : width = 4 ∨ width = 8)
    (hvs : ∀ v ∈ vs, toNat v < 256 ^ width ∧
      toInt64 (if width = 4 then expand64 (toNat v) else toNat v) = v) :
    decodeElems (callback dec .integer) (1 + width * vs.length)
      (UInt8.ofNat width :: (vs.flatMap fun v => leBytes width (toNat v)) ++ rest) .integer =
        .ok (vs.map Value.integer) := by
  have hread : readLE 1 (UInt8.ofNat width :: (vs.flatMap fun v => leBytes width (toNat v)) ++ rest) =
      .ok width := by
    rcases hwidth with rfl | rfl <;> rfl
  have hpos : 0 < width := by omega
  have hints := @decodeInts_flatMap (callback dec .integer) width
    (vs.map fun v => (toNat v, Value.integer v)) rest (by
      intro x hx
      obtain ⟨v, hv, rfl⟩ := List.mem_map.mp hx
      obtain ⟨hlt, hto⟩ := hvs v hv
      refine ⟨hlt, ?_⟩
      dsimp only
      rw [callback, hto])
  rw [List.length_map, List.flatMap_map, List.map_map] at hints
  rw [decodeElems, hread]
  change (if (width = 4 ∨ width = 8) ∧ (1 + width * vs.length - 1) % width = 0 then _ else _) = _
  rw [Nat.add_sub_cancel_left, Nat.mul_mod_right, Nat.mul_div_cancel_left _ hpos, if_pos ⟨hwidth, rfl⟩]
  exact hints

theorem decodeArray_integers {vs : List ℤ} (rest : Bytes) (hvs : ∀ v ∈ vs, -2 ^ 63 ≤ v ∧ v < 2 ^ 63)
    (hlt : (encodeIntegers vs).length < 2 ^ 31) :
    decodeArray (callback dec .integer) .integer (fillSize (encodeIntegers vs) ++ rest) =
      .ok (some (.array (vs.map Value.integer))) := by
  by_cases hnil : vs = []
  · rw [hnil]
    exact decodeArray_nil .integer rest
  have hxs : vs.map Value.integer ≠ [] := by rwa [Ne, List.map_eq_nil_iff]
  have hflat : ∀ (width : ℕ) (toNat : ℤ → ℕ),
      (vs.flatMap fun v => leBytes width (toNat v)).length = width * vs.length := by
    intro width toNat
    simp only [List.length_flatMap, length_leBytes, List.map_const', List.sum_replicate_nat, Nat.mul_comm]
  have hne : ∀ (width : ℕ) (toNat : ℤ → ℕ), 0 < width →
      ¬ (vs.flatMap fun v => leBytes width (toNat v)) = [] := by
    intro width toNat hwidth
    rw [← List.length_eq_zero_iff, hflat, Nat.mul_eq_zero, List.length_eq_zero_iff]
    rintro (h | h)
    · omega
    · exact hnil h
  -- all numbers fit into four bytes, or all are written with eight
  rcases foldl_pushInteger vs with ⟨hall, heq⟩ | ⟨-, heq⟩
  · have henc : encodeIntegers vs = UInt8.ofNat 4 :: vs.flatMap fun v => leBytes 4 (v % 2 ^ 32).toNat := by
      rw [encodeIntegers, heq]
      exact if_neg (hne 4 (fun v => (v % 2 ^ 32).toNat) (by decide))
    have hdec := @decodeElems_integers dec vs 4 (fun v => (v % 2 ^ 32).toNat) rest
      (Or.inl rfl) fun v hv => ⟨by omega, by rw [if_pos rfl]; exact toInt64_expand64 (hall v hv)⟩
    have hlen : (vs.flatMap fun v => leBytes 4 (v % 2 ^ 32).toNat).length = 4 * vs.length := hflat 4 _
    refine decodeArray_fillSize rest (by rw [henc]; exact List.cons_ne_nil _ _) hlt hxs ?_
    rw [henc, List.length_cons, hlen, Nat.add_comm]
    exact hdec
  · have henc : encodeIntegers vs = UInt8.ofNat 8 :: vs.flatMap fun v => leBytes 8 (v % 2 ^ 64).toNat := by
      rw [encodeIntegers, heq]
      exact if_neg (hne 8 (fun v => (v % 2 ^ 64).toNat) (by decide))
    have hdec := @decodeElems_integers dec vs 8 (fun v => (v % 2 ^ 64).toNat) rest
      (Or.inr rfl) fun v hv =>
        ⟨by omega, by rw [if_neg (by decide)]; exact toInt64_mod (hvs v hv).1 (hvs v hv).2⟩
    have hlen : (vs.flatMap fun v => leBytes 8 (v % 2 ^ 64).toNat).length = 8 * vs.length := hflat 8 _
    refine decodeArray_fillSize rest (by rw [henc]; exact List.cons_ne_nil _ _) hlt hxs ?_
    rw [henc, List.length_cons, hlen, Nat.add_comm]
    exact hdec

/-- A boolean is a byte. -/
theorem decodeArray_booleans {xs : List (UInt8 × Value)} (rest : Bytes)
    (hxs : ∀ x ∈ xs, ∃ b : Bool, x.2 = .boolean b ∧ x.1 = if b then 1 else 0)
    (hlt : (xs.map Prod.fst).length < 2 ^ 31) :
    decodeArray (callback dec .boolean) .boolean (fillSize (xs.map Prod.fst) ++ rest) =
      .ok (some (.array (xs.map Prod.snd))) := by
  by_cases hnil : xs = []
  · rw [hnil]
    exact decodeArray_nil .boolean rest
  have hints := @decodeInts_flatMap (callback dec .boolean) 1
    (xs.map fun x => (x.1.toNat, x.2)) rest (by
      intro y hy
      obtain ⟨x, hx, rfl⟩ := List.mem_map.mp hy
      obtain ⟨b, hvalue, hbyte⟩ := hxs x hx
      refine ⟨x.1.toNat_lt, ?_⟩
      rw [hvalue, hbyte]
      cases b <;> rfl)
  have hflat : (xs.flatMap fun x => leBytes 1 x.1.toNat) = xs.map Prod.fst := by
    rw [← List.flatMap_singleton' (xs.map Prod.fst), List.flatMap_map]
    congr 1
    funext x
    simp [leBytes]
  rw [List.length_map, List.flatMap_map, List.map_map, hflat] at hints
  refine decodeArray_fillSize rest (by rwa [Ne, List.map_eq_nil_iff]) hlt (by rwa [Ne, List.map_eq_nil_iff]) ?_
  rw [List.length_map]
  exact hints

/-- A data part is as long as each element of it, and has a byte for each of them. -/
theorem length_flatMap_fillSize (xs : List (Bytes × Value)) :
    (∀ x ∈ xs, x.1.length ≤ (xs.flatMap fun x => fillSize x.1).length) ∧
      xs.length ≤ (xs.flatMap fun x => fillSize x.1).length := by
  induction xs with
  | nil => exact ⟨fun x hx => absurd hx List.not_mem_nil, le_rfl⟩
  | cons x xs ih =>
      obtain ⟨hmem, hcount⟩ := ih
      rw [List.flatMap_cons, List.length_append, length_fillSize, List.length_cons]
      refine ⟨List.forall_mem_cons.mpr ⟨by omega, fun y hy => ?_⟩, by omega⟩
      have hy := hmem y hy
      omega

/-- Strings or structs, each behind its length. -/
theorem RoundTrips.objects (h : RoundTrips typed enc dec) {kind : Kind} {elems : List Value}
    (hint : kind ≠ .integer) (hbool : kind ≠ .boolean) (helems : ∀ e ∈ elems, HasKind typed kind e) :
    ∃ bs, elems.mapM (encodeElem enc kind) = some bs ∧
      ((bs.flatMap fillSize).length < 2 ^ 31 → ∀ rest,
        decodeArray (callback dec kind) kind (fillSize (bs.flatMap fillSize) ++ rest) =
          .ok (some (.array elems))) := by
  obtain ⟨xs, hmap, rfl, hxs⟩ := exists_mapM fun e he => h.elem hint hbool (helems e he)
  refine ⟨xs.map Prod.fst, hmap, fun hlt rest => ?_⟩
  rw [List.flatMap_map] at hlt ⊢
  by_cases hnil : xs = []
  · rw [hnil]
    exact decodeArray_nil kind rest
  obtain ⟨hshort, hcount⟩ := length_flatMap_fillSize xs
  have hobjects := @decodeObjects_flatMap (callback dec kind) _ _ rest hcount hlt
    fun x hx => hxs x hx (Nat.lt_of_le_of_lt (hshort x hx) hlt)
  refine decodeArray_fillSize rest ?_ hlt (by rwa [Ne, List.map_eq_nil_iff]) ?_
  · intro hempty
    rw [hempty, List.length_nil, Nat.le_zero, List.length_eq_zero_iff] at hcount
    exact hnil hcount
  · have hto : toInt32 (xs.flatMap fun x => fillSize x.1).length =
        ((xs.flatMap fun x => fillSize x.1).length : ℕ) := if_pos hlt
    cases kind with
    | integer => exact absurd rfl hint
    | boolean => exact absurd rfl hbool
    | string => rw [decodeElems, hto, hobjects]
    | struct t => rw [decodeElems, hto, hobjects]

/-- The data part of an array. -/
theorem RoundTrips.elems (h : RoundTrips typed enc dec) {kind : Kind} {elems : List Value}
    (helems : ∀ e ∈ elems, HasKind typed kind e) :
    ∃ b, encodeElems enc kind elems = some b ∧
      (b.length < 2 ^ 31 → ∀ rest,
        decodeArray (callback dec kind) kind (fillSize b ++ rest) = .ok (some (.array elems))) := by
  cases kind with
  | integer =>
      have hints : ∀ e ∈ elems, ∃ v : ℤ, e.toInteger? = some v ∧ e = .integer v ∧ -2 ^ 63 ≤ v ∧ v < 2 ^ 63 := by
        intro e he
        have hkind := helems e he
        cases e with
        | integer v => exact ⟨v, rfl, rfl, hkind⟩
        | boolean | string | struct | array => exact hkind.elim
      obtain ⟨xs, hmap, rfl, hxs⟩ := exists_mapM hints
      refine ⟨encodeIntegers (xs.map Prod.fst), by rw [encodeElems, hmap, Option.map_some], fun hlt rest => ?_⟩
      have hvs : ∀ v ∈ xs.map Prod.fst, -2 ^ 63 ≤ v ∧ v < 2 ^ 63 := by
        intro v hv
        obtain ⟨x, hx, rfl⟩ := List.mem_map.mp hv
        exact (hxs x hx).2
      have hsame : (xs.map Prod.fst).map Value.integer = xs.map Prod.snd := by
        rw [List.map_map]
        exact List.map_congr_left fun x hx => (hxs x hx).1.symm
      rw [decodeArray_integers rest hvs hlt, hsame]
  | boolean =>
      have hbools : ∀ e ∈ elems, ∃ b : UInt8, e.toByte? = some b ∧
          ∃ v, e = .boolean v ∧ b = if v then 1 else 0 := by
        intro e he
        have hkind := helems e he
        cases e with
        | boolean v => exact ⟨_, rfl, v, rfl, rfl⟩
        | integer | string | struct | array => exact hkind.elim
      obtain ⟨xs, hmap, rfl, hxs⟩ := exists_mapM hbools
      exact ⟨xs.map Prod.fst, by rw [encodeElems, hmap], fun hlt rest => decodeArray_booleans rest hxs hlt⟩
  | string =>
      obtain ⟨bs, hmap, hdec⟩ := h.objects (by decide) (by decide) helems
      exact ⟨bs.flatMap fillSize, by rw [encodeElems, hmap, Option.map_some], hdec⟩
  | struct t =>
      obtain ⟨bs, hmap, hdec⟩ := h.objects (fun heq => Kind.noConfusion heq)
        (fun heq => Kind.noConfusion heq) helems
      exact ⟨bs.flatMap fillSize, by rw [encodeElems, hmap, Option.map_some], hdec⟩

/-- An integer is read from its word, or as four bytes or eight. -/
theorem decodes_encodeInteger {tag : ℕ} {v : ℤ} (hlo : -2 ^ 63 ≤ v) (hhi : v < 2 ^ 63) :
    (encodeInteger v).Decodes (callback dec) ⟨tag, .integer, false⟩ (.integer v) := by
  have hread : ∀ (n u : ℕ) (rest : Bytes), n < 2 ^ 31 → readLE 4 (fillSize (leBytes n u) ++ rest) = .ok n := by
    intro n u rest hn
    rw [fillSize, List.append_assoc, length_leBytes]
    exact readLE_append (by omega) _
  have hdrop : ∀ (n u : ℕ) (rest : Bytes), (fillSize (leBytes n u) ++ rest).drop 4 = leBytes n u ++ rest := by
    intro n u rest
    rw [fillSize, List.append_assoc, List.drop_left' (length_leBytes 4 _)]
  rw [encodeInteger]
  by_cases hfits : Fits v
  · rw [if_pos hfits]
    dsimp only
    by_cases hsmall : (v % 2 ^ 32).toNat < 0x7fff
    · rw [if_pos hsmall]
      refine ⟨hsmall, ?_⟩
      have hv : toInt64 (v % 2 ^ 32).toNat = v := by
        obtain ⟨hlow, hhigh⟩ := hfits
        rw [toInt64, if_pos (by omega)]
        omega
      change Except.ok (some (Value.integer (toInt64 _))) = _
      rw [hv]
    · rw [if_neg hsmall]
      refine ⟨_, rfl, by rw [length_leBytes]; decide, fun rest => ?_⟩
      have hvalue := readLE_append (n := 4) (v := (v % 2 ^ 32).toNat) (by omega) rest
      change (readLE 4 _ >>= _) = _
      rw [hread 4 _ rest (by decide), hdrop, ok_bind, if_pos rfl, hvalue]
      change Except.ok (some (Value.integer (toInt64 (expand64 _)))) = _
      rw [toInt64_expand64 hfits]
  · rw [if_neg hfits]
    refine ⟨_, rfl, by rw [length_leBytes]; decide, fun rest => ?_⟩
    have hvalue := readLE_append (n := 8) (v := (v % 2 ^ 64).toNat) (by omega) rest
    change (readLE 4 _ >>= _) = _
    rw [hread 8 _ rest (by decide), hdrop, ok_bind, if_neg (by decide), if_pos rfl, hvalue]
    change Except.ok (some (Value.integer (toInt64 _))) = _
    rw [toInt64_mod hlo hhi]

/-- **A value that belongs into a field is encoded and decoded.** -/
theorem RoundTrips.field (h : RoundTrips typed enc dec) {f : FieldDesc} {v : Value} (hv : f.Holds typed v) :
    ∃ x, encodeField enc f v = some x ∧ (x.bytes.length < 2 ^ 31 → x.Decodes (callback dec) f v) := by
  obtain ⟨tag, kind, array⟩ := f
  cases array with
  | true =>
      obtain ⟨elems, rfl, helems⟩ := hv
      obtain ⟨b, henc, hdec⟩ := h.elems helems
      refine ⟨.data (fillSize b), by rw [encodeField, if_pos rfl]; exact congrArg _ henc, fun hlt => ?_⟩
      rw [Field.bytes, length_fillSize] at hlt
      refine ⟨b, rfl, by omega, fun rest => ?_⟩
      rw [decodeData, if_pos rfl]
      exact hdec (by omega) rest
  | false =>
      have hkind : HasKind typed kind v := hv
      -- a string or a struct
      have hobject : ∀ b : Bytes,
        (b.length < 2 ^ 31 → ∀ rest, callback dec kind (.bytes (b ++ rest) b.length) = .ok v) →
          kind ≠ .integer → kind ≠ .boolean → (encodeObject b).bytes.length < 2 ^ 31 →
          (encodeObject b).Decodes (callback dec) ⟨tag, kind, false⟩ v := by
        intro b hdec hint hbool hlt
        rw [encodeObject, Field.bytes, length_fillSize] at hlt
        refine ⟨b, rfl, by omega, fun rest => ?_⟩
        have hread : readLE 4 (fillSize b ++ rest) = .ok b.length := by
          rw [fillSize, List.append_assoc]
          exact readLE_append (by omega) _
        have hdrop : (fillSize b ++ rest).drop 4 = b ++ rest := by
          rw [fillSize, List.append_assoc, List.drop_left' (length_leBytes 4 _)]
        have hto : toInt32 b.length = b.length := if_pos (by omega)
        rw [decodeData, if_neg Bool.false_ne_true]
        cases kind with
        | integer => exact absurd rfl hint
        | boolean => exact absurd rfl hbool
        | string | struct t =>
            change (readLE 4 _ >>= _) = _
            rw [hread, hdrop]
            change (callback dec _ (.bytes _ (toInt32 b.length))).map some = _
            rw [hto, hdec (by omega) rest]
            rfl
      change ∃ x, encodeValue enc kind v = some x ∧ _
      cases kind with
      | integer =>
          cases v with
          | integer v => exact ⟨_, rfl, fun _ => decodes_encodeInteger hkind.1 hkind.2⟩
          | boolean | string | struct | array => exact hkind.elim
      | boolean =>
          cases v with
          | boolean b =>
              refine ⟨_, rfl, fun _ => ?_⟩
              cases b
              · exact ⟨by decide, rfl⟩
              · exact ⟨by decide, rfl⟩
          | integer | string | struct | array => exact hkind.elim
      | string =>
          obtain ⟨b, henc, hdec⟩ := h.elem (by decide) (by decide) hkind
          cases v with
          | string s =>
              obtain rfl := Option.some.inj henc
              exact ⟨_, rfl, hobject s hdec (by decide) (by decide)⟩
          | integer | boolean | struct | array => exact hkind.elim
      | struct t =>
          have hint : Kind.struct t ≠ .integer := fun heq => Kind.noConfusion heq
          have hbool : Kind.struct t ≠ .boolean := fun heq => Kind.noConfusion heq
          obtain ⟨b, henc, hdec⟩ := h.elem hint hbool hkind
          cases v with
          | struct fields =>
              have hstruct : encodeValue enc (.struct t) (.struct fields) = some (encodeObject b) :=
                congrArg (Option.map encodeObject) henc
              exact ⟨encodeObject b, hstruct, hobject b hdec hint hbool⟩
          | integer | boolean | string | array => exact hkind.elim

end RoundTrip

/-- The fields of a type that a table has, by ascending tag, are the table. -/
theorem filterMap_lookup {tags : List ℕ} (htags : tags.Pairwise (· < ·)) {table : List (ℕ × Value)}
    (hsorted : (table.map Prod.fst).Pairwise (· < ·)) (hmem : ∀ x ∈ table, x.1 ∈ tags) :
    (tags.filterMap fun tag => (table.lookup tag).map (tag, ·)) = table := by
  induction tags generalizing table with
  | nil =>
      cases table with
      | nil => rfl
      | cons x table => exact absurd (hmem x List.mem_cons_self) List.not_mem_nil
  | cons tag tags ih =>
      obtain ⟨hhead, htags⟩ := List.pairwise_cons.mp htags
      by_cases hfirst : ∃ v rest, table = (tag, v) :: rest
      · obtain ⟨v, rest, rfl⟩ := hfirst
        obtain ⟨hfirst, hsorted⟩ := List.pairwise_cons.mp hsorted
        have hlater : ∀ x ∈ rest, x.1 ∈ tags := by
          intro x hx
          have hlt := hfirst x.1 (List.mem_map_of_mem hx)
          exact (List.mem_cons.mp (hmem x (List.mem_cons_of_mem _ hx))).resolve_left (Nat.ne_of_gt hlt)
        have hsame : (tags.filterMap fun t => (((tag, v) :: rest).lookup t).map (t, ·)) =
            tags.filterMap fun t => (rest.lookup t).map (t, ·) := by
          refine List.filterMap_congr fun t ht => ?_
          have hne : (t == tag) = false := beq_eq_false_iff_ne.mpr (Nat.ne_of_gt (hhead t ht))
          rw [List.lookup_cons, hne]
        rw [List.filterMap_cons, List.lookup_cons_self, Option.map_some, hsame, ih htags hsorted hlater]
      · have hlater : ∀ x ∈ table, x.1 ∈ tags := by
          intro x hx
          refine (List.mem_cons.mp (hmem x hx)).resolve_left fun heq => ?_
          -- the least tag can only stand in front
          cases table with
          | nil => exact absurd hx List.not_mem_nil
          | cons y rest =>
              obtain ⟨hlt, -⟩ := List.pairwise_cons.mp hsorted
              rcases List.mem_cons.mp hx with rfl | hrest
              · exact hfirst ⟨x.2, rest, by rw [← heq]⟩
              · have hy := hlt x.1 (List.mem_map_of_mem hrest)
                rcases List.mem_cons.mp (hmem y List.mem_cons_self) with hsame | hsome
                · omega
                · have hge := hhead y.1 hsome
                  omega
        have hnone : table.lookup tag = none := by
          rw [List.lookup_eq_none_iff]
          intro x hx
          exact bne_iff_ne.mpr (Nat.ne_of_lt (hhead x.1 (hlater x hx)))
        rw [List.filterMap_cons, hnone]
        exact ih htags hsorted hlater

/-- One field of a table is decoded if it is there. -/
theorem RoundTrips.entry {typed : ℕ → List (ℕ × Value) → Prop} {enc : ℕ → List (ℕ × Value) → Option Bytes}
    {dec : ℕ → Bytes → ℤ → Decoded} (h : RoundTrips typed enc dec) {table : List (ℕ × Value)} {f : FieldDesc}
    (hf : ∀ v, table.lookup f.tag = some v → f.Holds typed v) :
    ∃ x, encodeEntry enc f (table.lookup f.tag) = some x ∧ x.1 = f.tag ∧
      x.2.isSome = (table.lookup f.tag).isSome ∧
      ∀ y, x.2 = some y → y.bytes.length < 2 ^ 31 →
        ∃ v, table.lookup f.tag = some v ∧ y.Decodes (callback dec) f v := by
  cases hv : table.lookup f.tag with
  | none =>
      refine ⟨(f.tag, none), rfl, rfl, rfl, fun y hy => ?_⟩
      exact absurd hy (Option.some_ne_none y).symm
  | some v =>
      obtain ⟨y, henc, hdec⟩ := h.field (hf v hv)
      refine ⟨(f.tag, some y), by rw [encodeEntry, henc, Option.map_some], rfl, rfl, fun z hz hlt => ?_⟩
      obtain rfl := Option.some.inj hz
      exact ⟨v, rfl, hdec hlt⟩

/-- A field is no longer than its struct. -/
theorem length_bytes_le {fields : List (ℕ × Option Field)} {tag : ℕ} {y : Field} (h : (tag, some y) ∈ fields) :
    y.bytes.length ≤ (encodeStruct fields).length := by
  have hsub : y.bytes <:+: fields.flatMap fun x => x.2.elim [] Field.bytes := by
    obtain ⟨before, after, rfl⟩ := List.append_of_mem h
    rw [List.flatMap_append, List.flatMap_cons]
    exact ⟨_, _, List.append_assoc _ _ _⟩
  have hle := hsub.length_le
  rw [encodeStruct, List.length_append]
  omega

/-- A table is encoded field by field, and the fields that it does not have are left out. -/
theorem encode_roundTrips (S : Schema) (deep : ℕ) :
    RoundTrips (Typed S deep) (encode S deep) (decode S deep) := by
  induction deep with
  | zero =>
      rintro t table ⟨hfields, rfl⟩
      refine ⟨encodeStruct [], if_pos hfields, fun _ rest size hsize => ?_⟩
      rw [decode]
      exact decodeWith_encodeStruct (fun _ => none) rest (by rw [hfields]; rfl)
        (fun x hx => absurd hx List.not_mem_nil) hsize
  | succ deep ih =>
      rintro t table ⟨hsorted, htable⟩
      -- a tag has one field, so what the table has for it is of that field's type
      have hfield : ∀ f ∈ (S t).fields, ∀ v, table.lookup f.tag = some v → f.Holds (Typed S deep) v := by
        intro f hf v hv
        obtain ⟨before, after, heq, -⟩ := List.lookup_eq_some_iff.mp hv
        have hmem : (f.tag, v) ∈ table := heq ▸ List.mem_append_right before List.mem_cons_self
        obtain ⟨f', hf', htag, hholds⟩ := htable _ hmem
        have hfind := SprotoType.findtag_eq_some.mpr ⟨hf, rfl⟩
        have hfind' := SprotoType.findtag_eq_some.mpr ⟨hf', htag⟩
        obtain rfl := Option.some.inj (hfind.symm.trans hfind')
        exact hholds
      obtain ⟨xs, hmap, hsnd, hxs⟩ := exists_mapM fun f hf => ih.entry (hfield f hf)
      have htags : (xs.map Prod.fst).map Prod.fst = (S t).fields.map FieldDesc.tag := by
        rw [← hsnd, List.map_map, List.map_map]
        exact List.map_congr_left fun x hx => (hxs x hx).1
      refine ⟨encodeStruct (xs.map Prod.fst), by rw [encode, hmap, Option.map_some],
        fun hlt rest size hsize => ?_⟩
      have hdec := @decodeWith_encodeStruct (callback (decode S deep)) (S t)
        (fun tag => table.lookup tag) _ _ rest htags (by
          rintro ⟨tag, _⟩ hx y rfl
          obtain ⟨⟨x, f⟩, hmem, rfl⟩ := List.mem_map.mp hx
          obtain ⟨htag, -, hy⟩ := hxs _ hmem
          obtain rfl : tag = f.tag := htag
          obtain ⟨v, hv, hdec⟩ := hy y rfl (Nat.lt_of_le_of_lt (length_bytes_le hx) hlt)
          have hf : f ∈ (S t).fields := hsnd ▸ List.mem_map_of_mem hmem
          exact ⟨f, v, SprotoType.findtag_eq_some.mpr ⟨hf, rfl⟩, hv, hdec⟩) hsize
      -- the fields that are decoded are those that the table has, in the same order
      have hresult : ((xs.map Prod.fst).filterMap fun x => x.2.bind fun _ => (table.lookup x.1).map (x.1, ·)) =
          table := by
        have hall := filterMap_lookup (List.pairwise_map.mpr (S t).ascending) hsorted fun x hx => by
          obtain ⟨f, hf, htag, -⟩ := htable x hx
          exact List.mem_map.mpr ⟨f, hf, htag⟩
        rw [← hsnd, List.map_map, List.filterMap_map] at hall
        rw [List.filterMap_map]
        refine (List.filterMap_congr fun x hx => ?_).trans hall
        obtain ⟨htag, hsome, -⟩ := hxs x hx
        rw [Function.comp_apply, Function.comp_apply, Function.comp_apply, htag]
        cases hv : table.lookup x.2.tag with
        | none =>
            rw [hv, Option.isSome_none, Option.isSome_eq_false_iff, Option.isNone_iff_eq_none] at hsome
            rw [hsome]
            rfl
        | some v =>
            rw [hv, Option.isSome_some, Option.isSome_iff_exists] at hsome
            obtain ⟨y, hy⟩ := hsome
            rw [hy]
            rfl
      rw [decode, hdec, hresult]

/-- **What is encoded is decoded.** A table that has its type is encoded, and decoding its bytes gives it back,
whatever comes after them. -/
theorem decode_encode (S : Schema) (deep t : ℕ) (table : List (ℕ × Value)) (h : Typed S deep t table) :
    ∃ bytes, encode S deep t table = some bytes ∧
      (bytes.length < 2 ^ 31 → ∀ rest (size : ℤ), bytes.length ≤ size →
        decode S deep t (bytes ++ rest) size = .ok (table, bytes.length)) :=
  encode_roundTrips S deep t table h

/-- A sequence of structs with a string and a sequence of integers, and a boolean behind a gap. -/
def nestedSchema : Schema := fun t =>
  if t = 0 then ⟨[⟨1, .struct 1, true⟩, ⟨5, .boolean, false⟩], by decide, by decide⟩
  else ⟨[⟨0, .string, false⟩, ⟨2, .integer, true⟩], by decide, by decide⟩

theorem decode_encode_nested :
    ∃ bytes, encode nestedSchema 2 0
        [(1, .array [.struct [(0, .string [7]), (2, .array [.integer (-1), .integer (2 ^ 40)])]]),
          (5, .boolean true)] = some bytes ∧
      (bytes.length < 2 ^ 31 → ∀ rest (size : ℤ), bytes.length ≤ size →
        decode nestedSchema 2 0 (bytes ++ rest) size =
          .ok ([(1, .array [.struct [(0, .string [7]), (2, .array [.integer (-1), .integer (2 ^ 40)])]]),
            (5, .boolean true)], bytes.length)) := by
  have hinner : Typed nestedSchema 1 1 [(0, .string [7]), (2, .array [.integer (-1), .integer (2 ^ 40)])] := by
    refine ⟨by decide, List.forall_mem_cons.mpr ⟨⟨_, List.mem_cons_self, rfl, trivial⟩, ?_⟩⟩
    refine List.forall_mem_singleton.mpr ⟨_, List.mem_cons_of_mem _ List.mem_cons_self, rfl, _, rfl, ?_⟩
    refine List.forall_mem_cons.mpr
      ⟨⟨by decide, by decide⟩, List.forall_mem_singleton.mpr ⟨by decide, by decide⟩⟩
  refine decode_encode nestedSchema 2 0 _ ⟨by decide, List.forall_mem_cons.mpr ⟨?_, ?_⟩⟩
  · exact ⟨_, List.mem_cons_self, rfl, _, rfl, List.forall_mem_singleton.mpr hinner⟩
  · exact List.forall_mem_singleton.mpr ⟨_, List.mem_cons_of_mem _ List.mem_cons_self, rfl, trivial⟩

/-! ## What is read -/

/-- Nothing outside the input is read. -/
def InBounds {α : Type} (r : Except DecodeError α) : Prop := r ≠ .error .outOfBounds

theorem InBounds.ok {α : Type} (a : α) : InBounds (.ok a : Except DecodeError α) := by
  intro h
  cases h

theorem InBounds.malformed {α : Type} : InBounds (.error .malformed : Except DecodeError α) := by
  intro h
  cases h

theorem InBounds.bind {α β : Type} {r : Except DecodeError α} {f : α → Except DecodeError β} (hr : InBounds r)
    (hf : ∀ a, r = .ok a → InBounds (f a)) : InBounds (r >>= f) := by
  cases r with
  | ok a => exact hf a rfl
  | error e => exact fun h => hr (congrArg _ (Except.error.inj h))

theorem InBounds.map {α β : Type} {r : Except DecodeError α} {f : α → β} (hr : InBounds r) :
    InBounds (r.map f) := by
  cases r with
  | ok a => exact InBounds.ok (f a)
  | error e => exact fun h => hr (congrArg _ (Except.error.inj h))

theorem inBounds_readLE {n : ℕ} {src : Bytes} (h : n ≤ src.length) : InBounds (readLE n src) := by
  rw [readLE, if_neg (by omega)]
  exact InBounds.ok _

/-- What the callback gets lies within the input. -/
def Arg.Fine : Arg → Prop
  | .bytes src length => length ≤ src.length
  | _ => True

/-- The callback reads no more than it gets. -/
def Safe (call : Kind → Arg → Except DecodeError Value) : Prop := ∀ kind arg, arg.Fine → InBounds (call kind arg)

theorem Safe.objects (h : Safe call) (kind : Kind) (fuel : ℕ) {src : Bytes} {sz : ℤ} (hsz : sz ≤ src.length) :
    InBounds (decodeObjects (call kind) fuel src sz) := by
  induction fuel generalizing src sz with
  | zero => exact InBounds.ok []
  | succ fuel ih =>
      rw [decodeObjects]
      split_ifs with hdone hshort
      · exact InBounds.ok []
      · exact InBounds.malformed
      · refine (inBounds_readLE (by omega)).bind fun hsz _ => ?_
        split_ifs with hlong
        · exact InBounds.malformed
        · refine (h kind _ ?_).bind fun x _ => (ih ?_).bind fun xs _ => InBounds.ok _
          · rw [Arg.Fine, List.length_drop]
            omega
          · rw [List.length_drop]
            omega

/-- Whatever is stored as the length of a data part, four bytes of it and no more than `step` are there. -/
theorem Safe.data (h : Safe call) {f : FieldDesc} (hf : f.array = true → f.kind ≠ .integer ∧ f.kind ≠ .boolean)
    {src : Bytes} {sz : ℕ} (hfour : 4 ≤ src.length) (hread : readLE 4 src = .ok sz)
    (hstep : (sz + 4) % 2 ^ 32 ≤ src.length) : InBounds (decodeData call f src) := by
  have hlt : sz < 256 ^ 4 := readLE_lt hread
  -- a length that `step` hides is negative as an `int`
  have hto : toInt32 sz ≤ (src.drop 4).length := by
    rw [toInt32, List.length_drop]
    split_ifs <;> omega
  obtain ⟨tag, kind, array⟩ := f
  cases array with
  | true =>
      obtain ⟨hint, hbool⟩ := hf rfl
      rw [decodeData, if_pos rfl, decodeArray, hread, ok_bind]
      split_ifs with hempty
      · exact (h kind .empty trivial).map
      · cases kind with
        | integer => exact absurd rfl hint
        | boolean => exact absurd rfl hbool
        | string | struct t => exact (h.objects _ sz hto).map
  | false =>
      rw [decodeData, if_neg Bool.false_ne_true]
      cases kind with
      | integer =>
          dsimp only
          rw [hread, ok_bind]
          split_ifs with hword hlong
          · refine (inBounds_readLE ?_).bind fun v _ => (h .integer (.word _) trivial).map
            rw [List.length_drop]
            omega
          · refine (inBounds_readLE ?_).bind fun v _ => (h .integer (.word _) trivial).map
            rw [List.length_drop]
            omega
          · exact InBounds.malformed
      | boolean => exact InBounds.malformed
      | string | struct t =>
          dsimp only
          rw [hread, ok_bind]
          exact (h _ (.bytes _ _) hto).map

theorem Safe.fields (h : Safe call) {st : SprotoType}
    (hst : ∀ f ∈ st.fields, f.array = true → f.kind ≠ .integer ∧ f.kind ≠ .boolean) (n tag : ℕ)
    {stream datastream : Bytes} {size : ℤ} (hn : 2 * n ≤ stream.length) (hsize : size ≤ datastream.length) :
    InBounds (decodeFields call st.findtag n tag stream datastream size) := by
  induction n generalizing tag stream datastream size with
  | zero => exact InBounds.ok _
  | succ n ih =>
      have hstream : 2 * n ≤ (stream.drop 2).length := by
        rw [List.length_drop]
        omega
      have hknown : ∀ {dec : FieldDesc → Except DecodeError (Option Value)},
          (∀ f ∈ st.fields, InBounds (dec f)) → InBounds (decodeKnown dec (st.findtag tag)) := by
        intro dec hdec
        cases hfind : st.findtag tag with
        | none => exact InBounds.ok _
        | some f => exact hdec f (SprotoType.findtag_eq_some.mp hfind).1
      rw [decodeFields]
      refine (inBounds_readLE (by omega)).bind fun value _ => ?_
      split_ifs with hskip hzero hshort
      · exact ih _ hstream hsize
      · exact InBounds.malformed
      · refine (inBounds_readLE (by omega)).bind fun sz hread => ?_
        dsimp only
        split_ifs with hlong
        · exact InBounds.malformed
        · refine (hknown fun f hf => h.data (hst f hf) (by omega) hread (by omega)).bind fun x _ => ?_
          refine (ih _ hstream ?_).bind fun r _ => InBounds.ok _
          rw [List.length_drop]
          omega
      · refine (hknown fun f _ => ?_).bind fun x _ => (ih _ hstream hsize).bind fun r _ => InBounds.ok _
        rw [decodeSmall]
        split_ifs
        · exact InBounds.malformed
        · cases f.kind with
          | integer | boolean => exact (h _ (.word _) trivial).map
          | string | struct t => exact InBounds.malformed

theorem Safe.decodeWith (h : Safe call) {st : SprotoType}
    (hst : ∀ f ∈ st.fields, f.array = true → f.kind ≠ .integer ∧ f.kind ≠ .boolean) {src : Bytes} {size : ℤ}
    (hsize : size ≤ src.length) : InBounds (decodeWith call st src size) := by
  rw [Sproto.decodeWith]
  split_ifs with hshort
  · exact InBounds.malformed
  · refine (inBounds_readLE (by omega)).bind fun fn _ => ?_
    split_ifs with hmany
    · exact InBounds.malformed
    · refine (h.fields hst fn 0 ?_ ?_).bind fun r _ => InBounds.ok _
      · rw [List.length_drop]
        omega
      · rw [List.length_drop]
        omega

theorem Safe.callback {dec : ℕ → Bytes → ℤ → Decoded}
    (h : ∀ t src (size : ℤ), size ≤ src.length → InBounds (dec t src size)) : Safe (callback dec) := by
  intro kind arg harg
  cases arg with
  | empty => cases kind <;> exact InBounds.ok _
  | word v =>
      cases kind with
      | integer | boolean => exact InBounds.ok _
      | string | struct => exact InBounds.malformed
  | bytes src length =>
      have hle : length ≤ src.length := harg
      cases kind with
      | integer | boolean => exact InBounds.malformed
      | string =>
          rw [Sproto.callback]
          split_ifs with hneg
          · intro h
            cases h
          · omega
          · exact InBounds.ok _
      | struct t =>
          rw [Sproto.callback]
          refine (h t src length hle).bind fun r _ => ?_
          split_ifs
          · exact InBounds.ok _
          · exact InBounds.malformed

theorem inBounds_decode {S : Schema}
    (hS : ∀ t, ∀ f ∈ (S t).fields, f.array = true → f.kind ≠ .integer ∧ f.kind ≠ .boolean) (deep t : ℕ)
    {src : Bytes} {size : ℤ} (hsize : size ≤ src.length) : InBounds (decode S deep t src size) := by
  induction deep generalizing t src size with
  | zero =>
      rw [decode]
      have hraised : Safe fun _ _ => .error .raised :=
        fun kind arg harg h => DecodeError.noConfusion (Except.error.inj h)
      exact hraised.decodeWith (hS t) hsize
  | succ deep ih =>
      rw [decode]
      exact (Safe.callback fun t src size h => ih t h).decodeWith (hS t) hsize

theorem decodeWith_eq_error {st : SprotoType} {ws : List ℕ} {data : Bytes} {e : DecodeError}
    (hcount : ws.length < 256 ^ 2)
    (h : decodeFields call st.findtag ws.length 0 (ws.flatMap (leBytes 2) ++ data) data data.length = .error e) :
    decodeWith call st (leBytes 2 ws.length ++ (ws.flatMap (leBytes 2) ++ data))
      (leBytes 2 ws.length ++ (ws.flatMap (leBytes 2) ++ data)).length = .error e := by
  have hwords : (ws.flatMap (leBytes 2)).length = 2 * ws.length := by
    simp only [List.length_flatMap, length_leBytes, List.map_const', List.sum_replicate_nat]
    omega
  have hlength : ((leBytes 2 ws.length ++ (ws.flatMap (leBytes 2) ++ data)).length : ℤ) =
      2 + 2 * ws.length + data.length := by
    rw [List.length_append, List.length_append, length_leBytes, hwords]
    push_cast
    omega
  have hleft : (2 + 2 * ws.length + data.length : ℤ) - 2 - 2 * ws.length = data.length := by omega
  rw [hlength, decodeWith, if_neg (by omega), readLE_append hcount, ok_bind, if_neg (by omega),
    ← List.drop_drop, List.drop_left' (length_leBytes 2 _), List.drop_left' hwords, hleft, h]
  rfl

/-- A length that is close to `2^32` takes the code behind the end of an array of numbers. -/
theorem decode_outOfBounds {S : Schema} {t : ℕ} {f : FieldDesc} (hf : f ∈ (S t).fields) (harray : f.array = true)
    (hkind : f.kind = .integer ∨ f.kind = .boolean) :
    ∃ src : Bytes, src.length < 2 ^ 31 ∧ decode S 0 t src src.length = .error .outOfBounds := by
  have hfind : (S t).findtag f.tag = some f := SprotoType.findtag_eq_some.mpr ⟨hf, rfl⟩
  have hsmall := (S t).small f hf
  have hread : readLE 4 (leBytes 4 (2 ^ 32 - 4)) = .ok (2 ^ 32 - 4) := by
    have hread := readLE_append (n := 4) (v := 2 ^ 32 - 4) (by decide) []
    rwa [List.append_nil] at hread
  have hdata : ∀ call : Kind → Arg → Except DecodeError Value,
      decodeData call f (leBytes 4 (2 ^ 32 - 4)) = .error .outOfBounds := by
    intro call
    have hend : (leBytes 4 (2 ^ 32 - 4)).drop 4 = [] := rfl
    rw [decodeData, if_pos harray, decodeArray, hread, ok_bind, if_neg (by decide), hend]
    rcases hkind with hkind | hkind <;> rw [hkind] <;> rfl
  -- the word of the field, with a length and nothing behind it
  have hword : ∀ call : Kind → Arg → Except DecodeError Value,
      decodeFields call (S t).findtag 1 f.tag (leBytes 2 0 ++ leBytes 4 (2 ^ 32 - 4))
        (leBytes 4 (2 ^ 32 - 4)) 4 =
        .error .outOfBounds := by
    intro call
    rw [decodeFields, readLE_append (by decide), ok_bind, if_neg (by decide), if_pos rfl, if_neg (by decide),
      hread, ok_bind, if_neg (by decide), hfind, decodeKnown, hdata]
    rfl
  by_cases htag : f.tag = 0
  · rw [htag] at hword
    refine ⟨leBytes 2 1 ++ ([0].flatMap (leBytes 2) ++ leBytes 4 (2 ^ 32 - 4)), by decide, ?_⟩
    exact decodeWith_eq_error (by decide) (hword _)
  · have hodd : 2 * (f.tag - 1) + 1 < 256 ^ 2 := by omega
    have hgap : 0 + 1 + (2 * (f.tag - 1) + 1) / 2 = f.tag := by omega
    refine ⟨leBytes 2 2 ++ ([2 * (f.tag - 1) + 1, 0].flatMap (leBytes 2) ++ leBytes 4 (2 ^ 32 - 4)), ?_, ?_⟩
    · simp
    · refine decodeWith_eq_error (show 2 < 256 ^ 2 by decide) ?_
      rw [List.length_cons, decodeFields, List.flatMap_cons, List.append_assoc, readLE_append hodd, ok_bind,
        if_pos (by omega), hgap, List.drop_left' (length_leBytes 2 _), length_leBytes]
      exact hword _

/-- **Nothing outside the input is read, whatever the input is, if and only if no type has an array of integers
or booleans.** -/
theorem decode_inBounds_iff (S : Schema) :
    (∀ (deep t : ℕ) (src : Bytes), src.length < 2 ^ 31 → decode S deep t src src.length ≠ .error .outOfBounds) ↔
      ∀ t, ∀ f ∈ (S t).fields, f.array = true → f.kind ≠ .integer ∧ f.kind ≠ .boolean := by
  constructor
  · intro h t f hf harray
    refine ⟨fun hkind => ?_, fun hkind => ?_⟩
    · obtain ⟨src, hlt, hout⟩ := decode_outOfBounds hf harray (Or.inl hkind)
      exact h 0 t src hlt hout
    · obtain ⟨src, hlt, hout⟩ := decode_outOfBounds hf harray (Or.inr hkind)
      exact h 0 t src hlt hout
  · intro h deep t src _
    exact inBounds_decode h deep t le_rfl

end FrameSync.Sproto
