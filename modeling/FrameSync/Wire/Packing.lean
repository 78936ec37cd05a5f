import FrameSync.Wire.Sproto

/-! # The zero packing and its inverse

`sproto_pack` and `sproto_unpack` of `sproto.c`. `Packing p b` says that the packed bytes `p` stand for
`b`, segment by segment. What `sproto_pack` writes stands for its input, filled up to a multiple of
eight bytes (`packing_sprotoPack`), and is never longer than the buffer that `lpack` gives it
(`length_spack_le_maxsz`). `sproto_unpack` tests what is left of its input only after it took a byte, so
beside the packings it accepts those whose last segment lacks its last byte, and reads the byte that lies
behind the input in its place (`sprotoUnpack_eq_some`). -/

namespace FrameSync.Sproto

/-! ## Segments -/

/-- The lowest `n` bits of a mask, `(header >> i) & 1`. -/
def bits : ℕ → ℕ → List Bool
  | 0, _ => []
  | n + 1, m => decide (m % 2 = 1) :: bits n (m / 2)

/-- A group from its mask and its nonzero bytes. -/
def spread : List Bool → Bytes → Bytes
  | [], _ => []
  | false :: bs, data => 0 :: spread bs data
  | true :: bs, d :: data => d :: spread bs data
  | true :: bs, [] => 0 :: spread bs []

@[simp] theorem length_bits (n m : ℕ) : (bits n m).length = n := by
  induction n generalizing m with
  | zero => rfl
  | succ n ih => rw [bits, List.length_cons, ih]

@[simp] theorem length_spread (bs : List Bool) (data : Bytes) : (spread bs data).length = bs.length := by
  induction bs generalizing data with
  | nil => rfl
  | cons b bs ih => cases b <;> cases data <;> simp [spread, ih]

theorem mask_lt (g : Bytes) : mask g < 2 ^ g.length := by
  induction g with
  | nil => exact Nat.one_pos
  | cons b g ih =>
      rw [mask, List.length_cons, pow_succ]
      split <;> omega

/-- The bits of the mask of a group. -/
theorem bits_mask (g : Bytes) : bits g.length (mask g) = g.map fun b => decide (b ≠ 0) := by
  induction g with
  | nil => rfl
  | cons b g ih =>
      have hhead : (mask (b :: g) % 2 = 1) = (b ≠ 0) := by
        rw [mask]
        split <;> simp_all
      have htail : mask (b :: g) / 2 = mask g := by
        rw [mask]
        split <;> omega
      rw [List.length_cons, bits, htail, ih, List.map_cons]
      simp only [hhead]

/-- The nonzero bytes of a group, spread by its mask, are the group. -/
theorem spread_mask (g : Bytes) :
    spread (g.map fun b => decide (b ≠ 0)) (g.filter (· ≠ 0)) = g := by
  induction g with
  | nil => rfl
  | cons b g ih =>
      by_cases hb : b = 0
      · simpa [hb, spread] using ih
      · simpa [hb, spread] using ih

/-- The mask is full exactly when the group is dense. -/
theorem mask_eq_iff (g : Bytes) : mask g + 1 = 2 ^ g.length ↔ notzero g = g.length := by
  induction g with
  | nil => exact iff_of_true rfl rfl
  | cons b g ih =>
      have hlt := mask_lt g
      have hle : notzero g ≤ g.length := List.countP_le_length
      rw [mask, notzero, List.countP_cons, List.length_cons, pow_succ]
      change _ ↔ notzero g + _ = _
      by_cases hb : b = 0
      · simp only [hb, ne_eq, not_true_eq_false, if_false, decide_false]
        exact iff_of_false (by omega) (by simp; omega)
      · simp only [hb, ne_eq, not_false_eq_true, if_true, decide_true]
        omega

/-- A group that is not dense has a mask below `0xff`. -/
theorem mask_of_sparse {g : Bytes} (hg : g.length = 8) (hsparse : notzero g ≠ 8) :
    mask g < 255 := by
  have hlt := mask_lt g
  have hfull := mask_eq_iff g
  rw [hg] at hlt hfull
  have hne := mt hfull.mp hsparse
  omega

/-! ## What packed bytes stand for -/

/-- `p` is made of segments, a mask with its nonzero bytes or a run of whole groups, that stand
for `b`. -/
inductive Packing : Bytes → Bytes → Prop
  | nil : Packing [] []
  | seg {m : UInt8} {data p b : Bytes} (hm : m ≠ 0xff)
      (hdata : data.length = (bits 8 m.toNat).count true) (h : Packing p b) :
      Packing (m :: (data ++ p)) (spread (bits 8 m.toNat) data ++ b)
  | run {n : UInt8} {data p b : Bytes} (hdata : data.length = (n.toNat + 1) * 8) (h : Packing p b) :
      Packing (0xff :: n :: (data ++ p)) (data ++ b)

theorem length_flatten {gs : List Bytes} (hgs : ∀ g ∈ gs, g.length = 8) :
    gs.flatten.length = gs.length * 8 := by
  rw [List.length_flatten, List.map_congr_left hgs, List.map_const', List.sum_replicate_nat]

theorem length_snoc {run : List Bytes} (hrun : ∀ g ∈ run, g.length = 8) {g : Bytes} (hg : g.length = 8) :
    ∀ g' ∈ run ++ [g], g'.length = 8 := by
  intro g' hg'
  rcases List.mem_append.mp hg' with hg' | hg'
  · exact hrun g' hg'
  · rw [List.mem_singleton.mp hg']
    exact hg

/-- A group that is not dense, as a segment. -/
theorem Packing.packSeg {g p b : Bytes} (hg : g.length = 8) (hsparse : notzero g ≠ 8)
    (h : Packing p b) : Packing (packSeg g ++ p) (g ++ b) := by
  have hlt := mask_of_sparse hg hsparse
  have hm : (UInt8.ofNat (mask g)).toNat = mask g := by
    rw [UInt8.toNat_ofNat']
    omega
  have hbits : bits 8 (UInt8.ofNat (mask g)).toNat = g.map fun b => decide (b ≠ 0) := by
    rw [hm, ← hg, bits_mask]
  have hff : UInt8.ofNat (mask g) ≠ 0xff := by
    intro heq
    rw [heq] at hm
    change 255 = mask g at hm
    omega
  have hdata : (g.filter (· ≠ 0)).length = (bits 8 (UInt8.ofNat (mask g)).toNat).count true := by
    rw [hbits, List.count_eq_countP, List.countP_map, List.countP_eq_length_filter]
    congr 2
    funext b
    simp
  have hseg := Packing.seg hff hdata h
  rwa [hbits, spread_mask] at hseg

/-- A run of up to 256 groups. -/
theorem Packing.writeFF {run : List Bytes} (hrun : run ≠ []) (hle : run.length ≤ 256)
    (hgroups : ∀ g ∈ run, g.length = 8) {p b : Bytes} (h : Packing p b) :
    Packing (writeFF run ++ p) (run.flatten ++ b) := by
  have hpos := List.length_pos_iff.mpr hrun
  have hn : (UInt8.ofNat (run.length - 1)).toNat = run.length - 1 := by
    rw [UInt8.toNat_ofNat']
    omega
  refine Packing.run ?_ h
  rw [length_flatten hgroups, hn]
  omega

/-- **The loop of `sproto_pack`** writes segments for the groups. -/
theorem packing_packGroups (gs run : List Bytes) (hgs : ∀ g ∈ gs, g.length = 8)
    (hrun : ∀ g ∈ run, g.length = 8) (hlt : run.length < 256) :
    Packing (packGroups gs run) (run.flatten ++ gs.flatten) := by
  induction gs generalizing run with
  | nil =>
      rw [packGroups]
      split
      · rename_i hnil
        rw [hnil]
        exact .nil
      · rename_i hne
        simpa using Packing.writeFF hne hlt.le hrun .nil
  | cons g gs ih =>
      have hg := hgs g List.mem_cons_self
      have hrest := fun g' hg' => hgs g' (List.mem_cons_of_mem _ hg')
      have hnext := length_snoc hrun hg
      have hempty := ih [] hrest (fun g' hg' => absurd hg' List.not_mem_nil) (by simp)
      rw [List.flatten_nil, List.nil_append] at hempty
      rw [packGroups, List.flatten_cons]
      split_ifs with hopen hdense hmore hlast
      · rw [hopen]
        simpa using ih [g] hrest (by simpa using hg) (by simp)
      · rw [hopen]
        exact hempty.packSeg hg hdense
      · have hclosed := hempty.writeFF (List.append_ne_nil_of_right_ne_nil run (List.cons_ne_nil g []))
          (by rw [List.length_append, List.length_singleton, hlast]) hnext
        simpa using hclosed
      · have hlonger := ih (run ++ [g]) hrest hnext
          (by rw [List.length_append, List.length_singleton]; omega)
        simpa using hlonger
      · rw [List.append_assoc]
        exact (hempty.packSeg hg (by omega)).writeFF hopen hlt.le hrun

/-! ## `sproto_pack` -/

theorem groups_of_le {b : Bytes} (hb : 8 ≤ b.length) : groups b = b.take 8 :: groups (b.drop 8) := by
  rcases b with _ | ⟨a, _ | ⟨b, _ | ⟨c, _ | ⟨d, _ | ⟨e, _ | ⟨f, _ | ⟨g, _ | ⟨h, rest⟩⟩⟩⟩⟩⟩⟩⟩
  all_goals first | rfl | exact absurd hb (by simp)

/-- The last group is filled up with zeros. -/
theorem groups_of_lt {b : Bytes} (hpos : b ≠ []) (hb : b.length < 8) :
    groups b = [b ++ List.replicate (8 - b.length) 0] := by
  rw [groups]
  · rintro a b c d e f g h rest rfl
    simp only [List.length_cons] at hb
    omega
  · exact hpos

theorem groups_append {g : Bytes} (hg : g.length = 8) (rest : Bytes) :
    groups (g ++ rest) = g :: groups rest := by
  rw [groups_of_le (by rw [List.length_append]; omega), List.take_left' hg, List.drop_left' hg]

theorem groups_flatten_append {gs : List Bytes} (hgs : ∀ g ∈ gs, g.length = 8) (tail : Bytes) :
    groups (gs.flatten ++ tail) = gs ++ groups tail := by
  induction gs with
  | nil => rfl
  | cons g gs ih =>
      rw [List.flatten_cons, List.append_assoc, groups_append (hgs g List.mem_cons_self),
        ih fun g' hg' => hgs g' (List.mem_cons_of_mem _ hg'), List.cons_append]

/-- One group. -/
theorem groups_tail {tail : Bytes} (hpos : tail ≠ []) (hle : tail.length ≤ 8) :
    groups tail = [tail ++ List.replicate (8 - tail.length) 0] := by
  rcases Nat.lt_or_eq_of_le hle with hlt | heq
  · exact groups_of_lt hpos hlt
  · have h := groups_append heq []
    rw [List.append_nil] at h
    rw [h, heq, Nat.sub_self, List.replicate_zero, List.append_nil]
    rfl

/-- Bytes are whole groups and a last one. -/
theorem exists_groups (b : Bytes) (hb : b ≠ []) : ∃ (gs : List Bytes) (tail : Bytes),
    (∀ g ∈ gs, g.length = 8) ∧ tail ≠ [] ∧ tail.length ≤ 8 ∧ b = gs.flatten ++ tail := by
  induction hn : b.length using Nat.strong_induction_on generalizing b with
  | _ n ih =>
      by_cases hshort : b.length ≤ 8
      · exact ⟨[], b, fun g hg => absurd hg List.not_mem_nil, hb, hshort, rfl⟩
      · have hdrop : (b.drop 8).length = b.length - 8 := List.length_drop
        have hrest : b.drop 8 ≠ [] := by
          rw [← List.length_pos_iff]
          omega
        obtain ⟨gs, tail, hgs, htail, hle, heq⟩ := ih (b.length - 8) (by omega) (b.drop 8) hrest hdrop
        refine ⟨b.take 8 :: gs, tail, ?_, htail, hle, ?_⟩
        · intro g hg
          rcases List.mem_cons.mp hg with rfl | hg
          · rw [List.length_take]
            omega
          · exact hgs g hg
        · rw [List.flatten_cons, List.append_assoc, ← heq, List.take_append_drop]

/-- The groups are the bytes, filled up with fewer than eight zeros. -/
theorem flatten_groups (b : Bytes) :
    ∃ k < 8, (groups b).flatten = b ++ List.replicate k 0 ∧ (b.length + k) % 8 = 0 := by
  by_cases hb : b = []
  · rw [hb]
    exact ⟨0, by decide, rfl, rfl⟩
  · obtain ⟨gs, tail, hgs, htail, hle, rfl⟩ := exists_groups b hb
    have hpos := List.length_pos_iff.mpr htail
    refine ⟨8 - tail.length, by omega, ?_, ?_⟩
    · rw [groups_flatten_append hgs, groups_tail htail hle, List.flatten_append, List.append_assoc]
      simp
    · rw [List.length_append, length_flatten hgs]
      omega

/-- What `spack` writes stands for its input, filled up with zeros. -/
theorem packing_spack (b : Bytes) : Packing (spack b) (groups b).flatten := by
  have h := packing_packGroups (groups b) [] (length_groups b).2
    (fun g hg => absurd hg List.not_mem_nil) (by simp)
  rwa [List.flatten_nil, List.nil_append] at h

/-- The loop of `sproto_pack` over each group twice: as `pack_seg` sees it, and as it lies in memory. A run
that ends inside the loop is copied from memory, the last one only as far as the input goes. -/
def packLoop : List (Bytes × Bytes) → List (Bytes × Bytes) → Bytes
  | [], run => if run = [] then [] else writeFF (run.map Prod.fst)
  | g :: gs, run =>
      if run = [] then
        if notzero g.1 = 8 then packLoop gs [g] else packSeg g.1 ++ packLoop gs []
      else if 6 ≤ notzero g.1 then
        if run.length + 1 = 256 then writeFF ((run ++ [g]).map Prod.snd) ++ packLoop gs []
        else packLoop gs (run ++ [g])
      else writeFF (run.map Prod.snd) ++ packSeg g.1 ++ packLoop gs []

/-- `sproto_pack` of `b`, where `behind` is what comes after it in memory. -/
def sprotoPack (b : Bytes) (behind : ℕ → UInt8) : Bytes :=
  packLoop ((groups b).zip (groups (b ++ (List.range 8).map behind))) []

/-- A group that is all there. -/
abbrev whole (g : Bytes) : Bytes × Bytes := (g, g)

/-- Only the last group may differ from what lies in memory, and this shows only when it closes a run
of 256 groups. -/
theorem packLoop_last (gs run : List Bytes) {l l' : Bytes} (hle : notzero l ≤ notzero l')
    (hlength : l'.length = l.length) :
    packLoop (gs.map whole ++ [(l, l')]) (run.map whole) = packGroups (gs ++ [l]) run ∨
      6 ≤ notzero l ∧ packLoop (gs.map whole ++ [(l, l')]) (run.map whole) = packGroups (gs ++ [l']) run ∧
        (packGroups (gs ++ [l']) run).length = (packGroups (gs ++ [l]) run).length := by
  have hmap : ∀ run : List Bytes, (run.map whole).map Prod.fst = run ∧ (run.map whole).map Prod.snd = run := by
    intro run
    simp [Function.comp_def]
  have hnil : ∀ run : List Bytes, run.map whole = [] ↔ run = [] := fun run => List.map_eq_nil_iff
  induction gs generalizing run with
  | nil =>
      have hsnoc : (run.map whole ++ [(l, l')]).map Prod.fst = run ++ [l] ∧
          (run.map whole ++ [(l, l')]).map Prod.snd = run ++ [l'] := by
        rw [List.map_append, List.map_append, (hmap run).1, (hmap run).2]
        exact ⟨rfl, rfl⟩
      rw [List.map_nil, List.nil_append, List.nil_append, List.nil_append]
      by_cases hopen : run = []
      · -- a group that opens a run is written from the copy in `tmp`
        refine Or.inl ?_
        rw [hopen]
        simp only [List.map_nil, packLoop, packGroups, if_true, List.cons_ne_nil, if_false, List.map_cons]
      · have hne : run ++ [l] ≠ [] := List.append_ne_nil_of_left_ne_nil hopen [l]
        simp only [packLoop, packGroups, hnil, hsnoc, hmap, List.length_map, List.append_eq_nil_iff,
          List.cons_ne_nil, and_false, if_false, hopen]
        by_cases hmore : 6 ≤ notzero l
        · rw [if_pos hmore, if_pos hmore, if_pos (hmore.trans hle)]
          by_cases hlast : run.length + 1 = 256
          · -- the run is full, and is written from the input
            rw [if_pos hlast, if_pos hlast, if_pos hlast]
            refine Or.inr ⟨hmore, rfl, ?_⟩
            simp only [writeFF, List.length_append, List.length_cons, List.flatten_append, List.flatten_cons,
              hlength]
          · rw [if_neg hlast, if_neg hlast]
            exact Or.inl rfl
        · rw [if_neg hmore, if_neg hmore]
          exact Or.inl rfl
  | cons g gs ih =>
      have hsnoc : run.map whole ++ [whole g] = (run ++ [g]).map whole := by simp
      have hclosed : (run.map whole ++ [whole g]).map Prod.snd = run ++ [g] := by rw [hsnoc, (hmap _).2]
      have hfirst := ih [g]
      have hnext := ih (run ++ [g])
      have hstart : ∀ p : Bytes,
          p ++ packLoop (gs.map whole ++ [(l, l')]) [] = p ++ packGroups (gs ++ [l]) [] ∨
            6 ≤ notzero l ∧ p ++ packLoop (gs.map whole ++ [(l, l')]) [] = p ++ packGroups (gs ++ [l']) [] ∧
              (p ++ packGroups (gs ++ [l']) []).length = (p ++ packGroups (gs ++ [l]) []).length := by
        intro p
        have h := ih []
        rw [List.map_nil] at h
        refine h.imp (fun h => by rw [h]) fun h => ⟨h.1, by rw [h.2.1], ?_⟩
        rw [List.length_append, List.length_append, h.2.2]
      rw [List.map_cons, List.map_nil] at hfirst
      simp only [List.map_cons, List.cons_append, packLoop, packGroups, hnil, (hmap run).2, List.length_map,
        hclosed]
      split_ifs with hopen hdense hmore hlast
      · exact hfirst
      · exact hstart _
      · exact hstart _
      · rw [hsnoc]
        exact hnext
      · exact hstart _

/-- **What `sproto_pack` writes**: the packing of its input filled up with zeros. Only if one or two bytes
are missing from the last group may the bytes behind the input stand in their place. -/
theorem sprotoPack_eq (b : Bytes) (behind : ℕ → UInt8) :
    sprotoPack b behind = spack b ∨ ∃ k ≤ 2, (b.length + k) % 8 = 0 ∧
      sprotoPack b behind = spack (b ++ (List.range k).map behind) ∧
        (sprotoPack b behind).length = (spack b).length := by
  by_cases hb : b = []
  · refine Or.inl ?_
    rw [hb]
    rfl
  · obtain ⟨gs, tail, hgs, htail, hle, rfl⟩ := exists_groups b hb
    have hpos := List.length_pos_iff.mpr htail
    let zeros := tail ++ List.replicate (8 - tail.length) 0
    let memory := tail ++ (List.range (8 - tail.length)).map behind
    have hzeros : zeros.length = 8 := by
      rw [List.length_append, List.length_replicate]
      omega
    have hmemory : memory.length = 8 := by
      rw [List.length_append, List.length_map, List.length_range]
      omega
    have hcut : (List.range 8).map behind = (List.range (8 - tail.length)).map behind ++
        (List.range tail.length).map fun i => behind (8 - tail.length + i) := by
      have hsum : 8 = 8 - tail.length + tail.length := by omega
      conv_lhs => rw [hsum, List.range_add, List.map_append, List.map_map]
      rfl
    have hgroups : groups (gs.flatten ++ tail) = gs ++ [zeros] := by
      rw [groups_flatten_append hgs, groups_tail htail hle]
    have hbehind : ∀ rest, groups (gs.flatten ++ tail ++ ((List.range (8 - tail.length)).map behind ++ rest)) =
        gs ++ memory :: groups rest := by
      intro rest
      rw [List.append_assoc, groups_flatten_append hgs, ← List.append_assoc, groups_append hmemory]
    have hself : ∀ gs : List Bytes, gs.zip gs = gs.map whole := fun gs => by
      induction gs with
      | nil => rfl
      | cons g gs ih => rw [List.zip_cons_cons, ih, List.map_cons]
    have hpack : sprotoPack (gs.flatten ++ tail) behind = packLoop (gs.map whole ++ [(zeros, memory)]) [] := by
      rw [sprotoPack, hgroups, hcut, hbehind, List.zip_append rfl, hself, List.zip_cons_cons, List.zip_nil_left]
    have hnotzero : notzero zeros = notzero tail := by
      simp [zeros, notzero, List.countP_replicate]
    have hmore : notzero zeros ≤ notzero memory := by
      rw [hnotzero, notzero_append]
      exact Nat.le_add_right _ _
    rw [hpack]
    rcases packLoop_last gs [] hmore (hmemory.trans hzeros.symm) with h | ⟨hdense, h, hsame⟩
    · refine Or.inl ?_
      rw [List.map_nil] at h
      rw [h, spack, hgroups]
    · have hcount : notzero tail ≤ tail.length := List.countP_le_length
      have hall := hbehind []
      rw [List.append_nil] at hall
      rw [List.map_nil] at h
      refine Or.inr ⟨8 - tail.length, by omega, ?_, ?_, ?_⟩
      · rw [List.length_append, length_flatten hgs]
        omega
      · rw [h, spack, hall]
        rfl
      · rw [h, hsame, spack, hgroups]

/-- **`sproto_pack` writes a packing** of its input, filled up to whole groups. -/
theorem packing_sprotoPack (b : Bytes) (behind : ℕ → UInt8) : ∃ pad, Packing (sprotoPack b behind) (b ++ pad) ∧
    pad.length < 8 ∧ (b.length + pad.length) % 8 = 0 ∧
      (pad = List.replicate pad.length 0 ∨ pad.length ≤ 2 ∧ pad = (List.range pad.length).map behind) := by
  rcases sprotoPack_eq b behind with heq | ⟨k, hk, hmod, heq, -⟩
  · obtain ⟨k, hk, hflat, hmod⟩ := flatten_groups b
    have hlength : (List.replicate k (0 : UInt8)).length = k := List.length_replicate
    refine ⟨List.replicate k 0, ?_, by rwa [hlength], by rwa [hlength], Or.inl (by rw [hlength])⟩
    rw [heq, ← hflat]
    exact packing_spack b
  · have hlength : ((List.range k).map behind).length = k := by
      rw [List.length_map, List.length_range]
    obtain ⟨j, hj, hflat, hmod'⟩ := flatten_groups (b ++ (List.range k).map behind)
    have hnone : j = 0 := by
      rw [List.length_append, hlength] at hmod'
      omega
    have hpacking := packing_spack (b ++ (List.range k).map behind)
    rw [hflat, hnone, List.replicate_zero, List.append_nil] at hpacking
    rw [← hlength] at hmod
    exact ⟨_, heq ▸ hpacking, by rw [hlength]; omega, hmod, Or.inr (by rw [hlength]; exact ⟨hk, rfl⟩)⟩

/-! ## How much room packing needs -/

/-- A run costs two bytes, and these are saved again by the group that ends it, unless it is full or the
last one. -/
theorem length_packGroups_last (gs run : List Bytes) {l : Bytes} {r : ℕ} (hgs : ∀ g ∈ gs, g.length = 8)
    (hrun : ∀ g ∈ run, g.length = 8) (hl : l.length = 8) (hlt : run.length < 256) (hr : notzero l ≤ r) :
    (packGroups (gs ++ [l]) run).length
      ≤ 8 * (run.length + gs.length) + r + 2 * ((run.length + gs.length + 256) / 256) + 2 := by
  have hff : ∀ {run : List Bytes}, (∀ g ∈ run, g.length = 8) →
      (writeFF run).length = run.length * 8 + 2 := by
    intro run hrun
    rw [writeFF, List.length_cons, List.length_cons, length_flatten hrun]
  have hseg : ∀ g : Bytes, (packSeg g).length = notzero g + 1 := by
    intro g
    rw [packSeg, List.length_cons, notzero, List.countP_eq_length_filter]
  induction gs generalizing run with
  | nil =>
      rw [List.nil_append, List.length_nil, packGroups]
      split_ifs with hopen hdense hmore hlast
      · rw [packGroups, if_neg (List.cons_ne_nil l []),
          hff (List.forall_mem_singleton.mpr hl : ∀ g ∈ [l], g.length = 8), hopen]
        simp only [List.length_singleton, List.length_nil]
        omega
      · rw [packGroups, if_pos rfl, List.append_nil, hseg, hopen]
        simp only [List.length_nil]
        omega
      · rw [packGroups, if_pos rfl, List.append_nil, hff (length_snoc hrun hl), List.length_append,
          List.length_singleton]
        omega
      · rw [packGroups, if_neg (List.append_ne_nil_of_right_ne_nil run (List.cons_ne_nil l [])),
          hff (length_snoc hrun hl), List.length_append, List.length_singleton]
        omega
      · rw [packGroups, if_pos rfl, List.append_nil, List.length_append, hff hrun, hseg]
        omega
  | cons g gs ih =>
      have hg := hgs g List.mem_cons_self
      have hrest := fun g' hg' => hgs g' (List.mem_cons_of_mem _ hg')
      have hempty := ih [] hrest (fun g' hg' => absurd hg' List.not_mem_nil) (by simp)
      rw [List.length_nil] at hempty
      have hcount : notzero g ≤ g.length := List.countP_le_length
      rw [List.cons_append, List.length_cons, packGroups]
      split_ifs with hopen hdense hmore hlast
      · have hfirst := ih [g] hrest (by simpa using hg) (by simp)
        rw [hopen, List.length_nil]
        rw [List.length_singleton] at hfirst
        omega
      · rw [List.length_append, hseg, hopen, List.length_nil]
        omega
      · rw [List.length_append, hff (length_snoc hrun hg), List.length_append, List.length_singleton]
        omega
      · have hnext := ih (run ++ [g]) hrest (length_snoc hrun hg)
          (by rw [List.length_append, List.length_singleton]; omega)
        rw [List.length_append, List.length_singleton] at hnext
        omega
      · rw [List.length_append, List.length_append, hff hrun, hseg]
        omega


/-- **The buffer of `lpack` is large enough**: packing needs at most two more bytes, and two for each
2048 bytes of the input. -/
theorem length_spack_le_maxsz (b : Bytes) :
    (spack b).length ≤ (b.length + 2047) / 2048 * 2 + b.length + 2 := by
  by_cases hb : b = []
  · rw [hb]
    exact Nat.zero_le _
  · obtain ⟨gs, tail, hgs, htail, hle, rfl⟩ := exists_groups b hb
    have hpos := List.length_pos_iff.mpr htail
    have hnotzero : notzero (tail ++ List.replicate (8 - tail.length) 0) ≤ tail.length := by
      have hcount : notzero tail ≤ tail.length := List.countP_le_length
      simpa [notzero, List.countP_replicate] using hcount
    have hlength := length_packGroups_last gs [] (l := tail ++ List.replicate (8 - tail.length) 0) hgs
      (fun g hg => absurd hg List.not_mem_nil) (by rw [List.length_append, List.length_replicate]; omega)
      (by simp) hnotzero
    rw [spack, groups_flatten_append hgs, groups_tail htail hle, List.length_append, length_flatten hgs]
    rw [List.length_nil] at hlength
    omega

/-! ## `sproto_unpack` -/

/-- The inner loop of `sproto_unpack`, over the bits of a mask: what it writes, and `src` and `srcsz` after
it. -/
def unpackSeg : List Bool → Bytes → ℤ → Option (Bytes × Bytes × ℤ)
  | [], src, srcsz => some ([], src, srcsz)
  | false :: bs, src, srcsz => (unpackSeg bs src srcsz).map fun r => (0 :: r.1, r.2)
  | true :: _, [], _ => none
  | true :: bs, d :: src, srcsz =>
      if srcsz < 0 then none else (unpackSeg bs src (srcsz - 1)).map fun r => (d :: r.1, r.2)

/-- The outer loop of `sproto_unpack`. Each round takes a header, so `fuel` rounds are enough for as
many bytes. -/
def unpackLoop : ℕ → Bytes → ℤ → Option Bytes
  | 0, _, srcsz => if srcsz ≤ 0 then some [] else none
  | _ + 1, [], srcsz => if srcsz ≤ 0 then some [] else none
  | fuel + 1, header :: src, srcsz =>
      if srcsz ≤ 0 then some []
      else if header = 0xff then
        src.head?.bind fun c =>
          let n := (c.toNat + 1) * 8
          if srcsz - 1 < n + 1 then none
          else (unpackLoop fuel (src.tail.drop n) (srcsz - 1 - (n + 1))).map (src.tail.take n ++ ·)
      else
        (unpackSeg (bits 8 header.toNat) src (srcsz - 1)).bind fun r =>
          (unpackLoop fuel r.2.1 r.2.2).map (r.1 ++ ·)

/-- `sproto_unpack` of `p`, which has the byte `behind` after it in memory: what it writes into a buffer
that is large enough, or an error. -/
def sprotoUnpack (p : Bytes) (behind : UInt8) : Option Bytes :=
  unpackLoop p.length (p ++ [behind]) p.length

/-- The bytes that the mask asks for are there. -/
theorem unpackSeg_of_le {bs : List Bool} {src rest : Bytes} {srcsz : ℤ}
    (hsrc : src.length = bs.count true) (hle : (src.length : ℤ) ≤ srcsz + 1) :
    unpackSeg bs (src ++ rest) srcsz = some (spread bs src, rest, srcsz - src.length) := by
  induction bs generalizing src srcsz with
  | nil =>
      obtain rfl := List.eq_nil_of_length_eq_zero hsrc
      simp [unpackSeg, spread]
  | cons b bs ih =>
      cases b with
      | false =>
          rw [unpackSeg, ih (by simpa using hsrc) hle]
          rfl
      | true =>
          rw [List.count_cons_self] at hsrc
          obtain ⟨d, src, rfl⟩ := List.exists_cons_of_length_eq_add_one hsrc
          rw [List.length_cons] at hsrc hle
          have hrec := @ih src (srcsz - 1) (Nat.succ.inj hsrc) (by push_cast at hle; omega)
          rw [List.cons_append, unpackSeg, if_neg (by push_cast at hle; omega), hrec, List.length_cons]
          simp only [Option.map_some, spread, Option.some.injEq, Prod.mk.injEq, true_and]
          push_cast
          omega

/-- The mask asks for two bytes more than there are. -/
theorem unpackSeg_of_lt {bs : List Bool} {src : Bytes} {srcsz : ℤ} (hlt : srcsz + 1 < bs.count true)
    (hneg : -1 ≤ srcsz) : unpackSeg bs src srcsz = none := by
  induction bs generalizing src srcsz with
  | nil =>
      simp only [List.count_nil] at hlt
      omega
  | cons b bs ih =>
      cases b with
      | false =>
          rw [unpackSeg, ih (by simpa using hlt) hneg]
          rfl
      | true =>
          cases src with
          | nil => rfl
          | cons d src =>
              rw [unpackSeg]
              split
              · rfl
              · rw [List.count_cons_self] at hlt
                rw [ih (by push_cast at hlt; omega) (by omega)]
                rfl

/-- `p` is a packing whose last segment lacks its last byte, and `x` stands in its place. -/
def Short (p : Bytes) (x : UInt8) (b : Bytes) : Prop :=
  ∃ q c m data, p = q ++ m :: data ∧ Packing q c ∧ m ≠ 0xff ∧
    data.length + 1 = (bits 8 m.toNat).count true ∧ b = c ++ spread (bits 8 m.toNat) (data ++ [x])

theorem packing_nil_iff {b : Bytes} : Packing [] b ↔ b = [] := by
  constructor
  · intro h
    cases h
    rfl
  · rintro rfl
    exact .nil

theorem not_short_nil {x : UInt8} {b : Bytes} : ¬ Short [] x b := by
  rintro ⟨q, c, m, data, heq, -⟩
  exact List.append_ne_nil_of_right_ne_nil q (List.cons_ne_nil m data) heq.symm

/-- A packing that begins with a mask. -/
theorem packing_seg_iff {m : UInt8} (hm : m ≠ 0xff) {p b : Bytes} : Packing (m :: p) b ↔
    ∃ data q c, p = data ++ q ∧ data.length = (bits 8 m.toNat).count true ∧ Packing q c ∧
      b = spread (bits 8 m.toNat) data ++ c := by
  constructor
  · intro h
    cases h with
    | seg _ hdata hq => exact ⟨_, _, _, rfl, hdata, hq, rfl⟩
    | run => exact absurd rfl hm
  · rintro ⟨data, q, c, rfl, hdata, hq, rfl⟩
    exact .seg hm hdata hq

/-- A packing that begins with a run. -/
theorem packing_run_iff {n : UInt8} {p b : Bytes} : Packing (0xff :: n :: p) b ↔
    ∃ data q c, p = data ++ q ∧ data.length = (n.toNat + 1) * 8 ∧ Packing q c ∧ b = data ++ c := by
  constructor
  · intro h
    generalize hlist : (0xff : UInt8) :: n :: p = l at h
    cases h with
    | nil => cases hlist
    | seg hm => exact absurd (List.cons.inj hlist).1.symm hm
    | run hdata hq =>
        obtain ⟨-, htail⟩ := List.cons.inj hlist
        obtain ⟨rfl, rfl⟩ := List.cons.inj htail
        exact ⟨_, _, _, rfl, hdata, hq, rfl⟩
  · rintro ⟨data, q, c, rfl, hdata, hq, rfl⟩
    exact .run hdata hq

/-- A run needs its length. -/
theorem not_packing_ff {b : Bytes} : ¬ Packing [0xff] b := by
  intro h
  generalize hlist : [(0xff : UInt8)] = l at h
  cases h with
  | nil => cases hlist
  | seg hm => exact hm (List.cons.inj hlist).1.symm
  | run => exact absurd (List.cons.inj hlist).2 (List.cons_ne_nil _ _).symm

theorem short_seg_iff {m : UInt8} (hm : m ≠ 0xff) {p b : Bytes} {x : UInt8} : Short (m :: p) x b ↔
    (p.length + 1 = (bits 8 m.toNat).count true ∧ b = spread (bits 8 m.toNat) (p ++ [x])) ∨
      ∃ data q c, p = data ++ q ∧ data.length = (bits 8 m.toNat).count true ∧ Short q x c ∧
        b = spread (bits 8 m.toNat) data ++ c := by
  constructor
  · rintro ⟨q, c, m', data, heq, hq, hm', hdata, rfl⟩
    cases q with
    | nil =>
        obtain ⟨rfl, rfl⟩ := List.cons.inj heq
        rw [packing_nil_iff.mp hq]
        exact Or.inl ⟨hdata, rfl⟩
    | cons m₀ q =>
        obtain ⟨rfl, rfl⟩ := List.cons.inj heq
        obtain ⟨data', q', c', rfl, hdata', hq', rfl⟩ := (packing_seg_iff hm).mp hq
        exact Or.inr ⟨data', _, _, List.append_assoc _ _ _, hdata',
          ⟨q', c', m', data, rfl, hq', hm', hdata, rfl⟩,
          List.append_assoc _ _ _⟩
  · rintro (⟨hlast, rfl⟩ | ⟨data, q, c, rfl, hdata, ⟨q', c', m', data', rfl, hq', hm', hdata', rfl⟩, rfl⟩)
    · exact ⟨[], [], m, p, rfl, .nil, hm, hlast, rfl⟩
    · exact ⟨m :: (data ++ q'), _, m', data', by simp, .seg hm hdata hq', hm', hdata', by simp⟩

theorem short_run_iff {n : UInt8} {p b : Bytes} {x : UInt8} : Short (0xff :: n :: p) x b ↔
    ∃ data q c, p = data ++ q ∧ data.length = (n.toNat + 1) * 8 ∧ Short q x c ∧ b = data ++ c := by
  constructor
  · rintro ⟨q, c, m, data, heq, hq, hm, hdata, rfl⟩
    cases q with
    | nil => exact absurd (List.cons.inj heq).1.symm hm
    | cons m₀ q =>
        obtain ⟨rfl, htail⟩ := List.cons.inj heq
        cases q with
        | nil => exact absurd hq not_packing_ff
        | cons n' q =>
            obtain ⟨rfl, rfl⟩ := List.cons.inj htail
            obtain ⟨data', q', c', rfl, hdata', hq', rfl⟩ := packing_run_iff.mp hq
            exact ⟨data', _, _, List.append_assoc _ _ _, hdata', ⟨q', c', m, data, rfl, hq', hm, hdata, rfl⟩,
              List.append_assoc _ _ _⟩
  · rintro ⟨data, q, c, rfl, hdata, ⟨q', c', m, data', rfl, hq', hm, hdata', rfl⟩, rfl⟩
    exact ⟨0xff :: n :: (data ++ q'), _, m, data', by simp, .run hdata hq', hm, hdata', by simp⟩

theorem not_short_ff {x : UInt8} {b : Bytes} : ¬ Short [0xff] x b := by
  rintro ⟨q, c, m, data, heq, -, hm, -⟩
  cases q with
  | nil => exact hm (List.cons.inj heq).1.symm
  | cons m₀ q => exact List.append_ne_nil_of_right_ne_nil q (List.cons_ne_nil m data) (List.cons.inj heq).2.symm

/-- A segment or run of known length is cut off in one way. -/
theorem cut_iff {P S : Bytes → Bytes → Prop} {rest : Option Bytes} {data q b : Bytes} (f : Bytes → Bytes) {k : ℕ}
    (hdata : data.length = k) (hq : ∀ c, rest = some c ↔ P q c ∨ S q c) :
    rest.map (f data ++ ·) = some b ↔
      (∃ data' q' c, data ++ q = data' ++ q' ∧ data'.length = k ∧ P q' c ∧ b = f data' ++ c) ∨
        ∃ data' q' c, data ++ q = data' ++ q' ∧ data'.length = k ∧ S q' c ∧ b = f data' ++ c := by
  rw [Option.map_eq_some_iff]
  constructor
  · rintro ⟨c, hc, rfl⟩
    exact ((hq c).mp hc).imp (fun h => ⟨data, q, c, rfl, hdata, h, rfl⟩)
      fun h => ⟨data, q, c, rfl, hdata, h, rfl⟩
  · rintro (⟨data', q', c, heq, hdata', h, rfl⟩ | ⟨data', q', c, heq, hdata', h, rfl⟩)
    · obtain ⟨rfl, rfl⟩ := List.append_inj heq (hdata.trans hdata'.symm)
      exact ⟨c, (hq c).mpr (Or.inl h), rfl⟩
    · obtain ⟨rfl, rfl⟩ := List.append_inj heq (hdata.trans hdata'.symm)
      exact ⟨c, (hq c).mpr (Or.inr h), rfl⟩

/-- A turn of the loop of `sproto_unpack` that has input. -/
theorem unpackLoop_cons (fuel : ℕ) (header : UInt8) (src : Bytes) (srcsz : ℕ) :
    unpackLoop (fuel + 1) (header :: src) (srcsz + 1 : ℕ) =
      if header = 0xff then
        src.head?.bind fun c =>
          if (srcsz : ℤ) < (((c.toNat + 1) * 8 : ℕ) : ℤ) + 1 then none
          else (unpackLoop fuel (src.tail.drop ((c.toNat + 1) * 8))
            (srcsz - ((((c.toNat + 1) * 8 : ℕ) : ℤ) + 1))).map (src.tail.take ((c.toNat + 1) * 8) ++ ·)
      else
        (unpackSeg (bits 8 header.toNat) src srcsz).bind fun r =>
          (unpackLoop fuel r.2.1 r.2.2).map (r.1 ++ ·) := by
  have hpos : ¬ ((srcsz + 1 : ℕ) : ℤ) ≤ 0 := by
    push_cast
    omega
  have hsize : ((srcsz + 1 : ℕ) : ℤ) - 1 = srcsz := by
    push_cast
    omega
  rw [unpackLoop, if_neg hpos, hsize]

/-- A run of the loop of `sproto_unpack` that ended in front of its input. -/
theorem unpackLoop_neg (fuel : ℕ) : unpackLoop fuel [] (-1) = some [] := by
  cases fuel with
  | zero => rfl
  | succ fuel => rfl

section Turn

variable {fuel : ℕ} {p b : Bytes} {x : UInt8}

/-- A turn on a run of groups. -/
theorem unpackLoop_run {n : UInt8}
    (ih : ∀ q c : Bytes, q.length ≤ p.length →
      (unpackLoop fuel (q ++ [x]) q.length = some c ↔ Packing q c ∨ Short q x c)) :
    unpackLoop (fuel + 1) (0xff :: n :: (p ++ [x])) (p.length + 1 + 1 : ℕ) = some b ↔
      Packing (0xff :: n :: p) b ∨ Short (0xff :: n :: p) x b := by
  rw [unpackLoop_cons, if_pos rfl, List.head?_cons, Option.bind_some, List.tail_cons, packing_run_iff,
    short_run_iff]
  by_cases hlt : p.length < (n.toNat + 1) * 8
  · -- the groups are not all there
    rw [if_pos (by push_cast; omega)]
    refine iff_of_false (fun h => by cases h) ?_
    rintro (⟨data, q, c, rfl, hdata, -⟩ | ⟨data, q, c, rfl, hdata, -⟩)
    · rw [List.length_append] at hlt
      omega
    · rw [List.length_append] at hlt
      omega
  · obtain ⟨data, q, rfl, hdata⟩ : ∃ data q, p = data ++ q ∧ data.length = (n.toNat + 1) * 8 :=
      ⟨p.take ((n.toNat + 1) * 8), p.drop ((n.toNat + 1) * 8), (List.take_append_drop _ p).symm,
        by rw [List.length_take]; omega⟩
    have hrest : (((data ++ q).length + 1 : ℕ) : ℤ) - ((((n.toNat + 1) * 8 : ℕ) : ℤ) + 1) = q.length := by
      rw [List.length_append, hdata]
      push_cast
      omega
    rw [if_neg (by rw [List.length_append, hdata]; push_cast; omega), hrest, List.append_assoc,
      List.drop_left' hdata, List.take_left' hdata]
    exact cut_iff (P := Packing) (S := fun q c => Short q x c) id hdata fun c =>
      ih q c (by rw [List.length_append]; omega)

/-- A turn on a segment. -/
theorem unpackLoop_seg {m : UInt8} (hm : m ≠ 0xff)
    (ih : ∀ q c : Bytes, q.length ≤ p.length →
      (unpackLoop fuel (q ++ [x]) q.length = some c ↔ Packing q c ∨ Short q x c)) :
    unpackLoop (fuel + 1) (m :: (p ++ [x])) (p.length + 1 : ℕ) = some b ↔
      Packing (m :: p) b ∨ Short (m :: p) x b := by
  rw [unpackLoop_cons, if_neg hm, packing_seg_iff hm, short_seg_iff hm]
  by_cases hle : (bits 8 m.toNat).count true ≤ p.length
  · -- the segment is there
    obtain ⟨data, q, rfl, hdata⟩ : ∃ data q, p = data ++ q ∧ data.length = (bits 8 m.toNat).count true :=
      ⟨p.take _, p.drop _, (List.take_append_drop _ p).symm, List.length_take_of_le hle⟩
    have hseg := @unpackSeg_of_le _ data (q ++ [x]) ((data ++ q).length : ℕ) hdata
      (by rw [List.length_append]; push_cast; omega)
    have hrest : (((data ++ q).length : ℕ) : ℤ) - data.length = q.length := by
      rw [List.length_append]
      push_cast
      omega
    rw [List.append_assoc, hseg, Option.bind_some, hrest]
    dsimp only
    rw [cut_iff (P := Packing) (S := fun q c => Short q x c) (spread (bits 8 m.toNat)) hdata fun c =>
      ih q c (by rw [List.length_append]; omega)]
    refine or_congr_right (or_iff_right ?_).symm
    rintro ⟨hone, -⟩
    rw [List.length_append] at hone
    omega
  · have hnone : ∀ data q : Bytes, p = data ++ q → data.length ≠ (bits 8 m.toNat).count true := by
      rintro data q rfl hdata
      rw [List.length_append] at hle
      omega
    by_cases hone : p.length + 1 = (bits 8 m.toNat).count true
    · -- its last byte is missing, and `x` is taken for it
      have hseg := @unpackSeg_of_le _ (p ++ [x]) [] (p.length : ℕ)
        (by rw [List.length_append, List.length_singleton, hone])
        (by rw [List.length_append, List.length_singleton]; push_cast; omega)
      have hlast : ((p.length : ℕ) : ℤ) - (p ++ [x]).length = -1 := by
        rw [List.length_append, List.length_singleton]
        push_cast
        omega
      rw [List.append_nil, hlast] at hseg
      rw [hseg, Option.bind_some]
      dsimp only
      rw [unpackLoop_neg, Option.map_some, List.append_nil, Option.some_inj]
      constructor
      · rintro rfl
        exact Or.inr (Or.inl ⟨hone, rfl⟩)
      · rintro (⟨data, q, -, heq, hdata, -⟩ | ⟨-, rfl⟩ | ⟨data, q, -, heq, hdata, -⟩)
        · exact absurd hdata (hnone data q heq)
        · rfl
        · exact absurd hdata (hnone data q heq)
    · -- two bytes are missing
      rw [unpackSeg_of_lt (by omega) (by omega)]
      refine iff_of_false (fun h => by cases h) ?_
      rintro (⟨data, q, -, heq, hdata, -⟩ | ⟨h, -⟩ | ⟨data, q, -, heq, hdata, -⟩)
      · exact hnone data q heq hdata
      · exact hone h
      · exact hnone data q heq hdata

end Turn

/-- **The loop of `sproto_unpack`.** -/
theorem unpackLoop_eq_some {fuel : ℕ} {p b : Bytes} {x : UInt8} (hfuel : p.length ≤ fuel) :
    unpackLoop fuel (p ++ [x]) p.length = some b ↔ Packing p b ∨ Short p x b := by
  have hnil : ∀ b : Bytes, some ([] : Bytes) = some b ↔ Packing [] b ∨ Short [] x b := by
    intro b
    rw [packing_nil_iff, or_iff_left not_short_nil, Option.some_inj, eq_comm]
  induction fuel generalizing p b with
  | zero =>
      obtain rfl := List.eq_nil_of_length_eq_zero (Nat.le_zero.mp hfuel)
      exact hnil b
  | succ fuel ih =>
      cases p with
      | nil => exact hnil b
      | cons m p =>
          rw [List.length_cons] at hfuel
          have hrest : ∀ q c : Bytes, q.length ≤ p.length →
              (unpackLoop fuel (q ++ [x]) q.length = some c ↔ Packing q c ∨ Short q x c) :=
            fun q c hq => ih (hq.trans (Nat.le_of_succ_le_succ hfuel))
          by_cases hm : m = 0xff
          · subst hm
            cases p with
            | nil =>
                -- a run without its length
                rw [List.cons_append, List.length_singleton, List.nil_append]
                refine iff_of_false (fun h => ?_) fun h => h.elim not_packing_ff not_short_ff
                rw [show (1 : ℕ) = 0 + 1 from rfl, unpackLoop_cons, if_pos rfl, List.head?_cons,
                  Option.bind_some, if_pos (by push_cast; omega)] at h
                cases h
            | cons n p =>
                exact unpackLoop_run fun q c hq => hrest q c (hq.trans (Nat.le_succ _))
          · exact unpackLoop_seg hm hrest

/-- **What `sproto_unpack` accepts**: the packings, and those that lack the last byte of their last
segment. For these the byte behind them in memory is read and written. -/
theorem sprotoUnpack_eq_some {p b : Bytes} {behind : UInt8} :
    sprotoUnpack p behind = some b ↔ Packing p b ∨ Short p behind b := unpackLoop_eq_some le_rfl

/-- **Packing and unpacking.** `sproto_pack` needs no more room than `lpack` gives it, so its error is never
raised, and `sproto_unpack` returns the input again, filled up to a multiple of eight bytes. It is filled up
with zeros, or, when at most two bytes are missing, with what lies behind the input in memory. The sizes are
`int` in C, so this is about inputs whose buffer has less than `2^31` bytes; `expand_buffer` raises above
`ENCODE_MAXSIZE`, `2^24`. -/
theorem unpack_pack (b : Bytes) (behind : ℕ → UInt8) (x : UInt8) :
    (sprotoPack b behind).length ≤ (b.length + 2047) / 2048 * 2 + b.length + 2 ∧
      ∃ pad, sprotoUnpack (sprotoPack b behind) x = some (b ++ pad) ∧ pad.length < 8 ∧
        (b.length + pad.length) % 8 = 0 ∧
          (pad = List.replicate pad.length 0 ∨ pad.length ≤ 2 ∧ pad = (List.range pad.length).map behind) := by
  obtain ⟨pad, hpacking, hpad⟩ := packing_sprotoPack b behind
  refine ⟨?_, pad, sprotoUnpack_eq_some.mpr (Or.inl hpacking), hpad⟩
  rcases sprotoPack_eq b behind with heq | ⟨-, -, -, -, hlength⟩
  · rw [heq]
    exact length_spack_le_maxsz b
  · rw [hlength]
    exact length_spack_le_maxsz b

theorem spread_injective {bs : List Bool} {data data' : Bytes} (h : data.length = bs.count true)
    (h' : data'.length = bs.count true) (heq : spread bs data = spread bs data') : data = data' := by
  induction bs generalizing data data' with
  | nil =>
      rw [List.eq_nil_of_length_eq_zero h, List.eq_nil_of_length_eq_zero h']
  | cons b bs ih =>
      cases b with
      | false => exact ih (by simpa using h) (by simpa using h') (List.cons.inj heq).2
      | true =>
          rw [List.count_cons_self] at h h'
          obtain ⟨d, data, rfl⟩ := List.exists_cons_of_length_eq_add_one h
          obtain ⟨d', data', rfl⟩ := List.exists_cons_of_length_eq_add_one h'
          obtain ⟨rfl, htail⟩ := List.cons.inj heq
          rw [ih (Nat.succ.inj h) (Nat.succ.inj h') htail]

/-- **What `sproto_unpack` reads.** It accepts the packings and those whose last segment lacks its last byte,
and nothing else. What lies behind its input makes a difference exactly for the latter: the byte there
is read and becomes part of the result. The sizes are `int` in C, so this is about inputs that have, and
unpack to, less than `2^31` bytes. -/
theorem unpack_reads_behind_iff (p : Bytes) :
    (∀ x b, sprotoUnpack p x = some b ↔ Packing p b ∨ Short p x b) ∧
      ((∃ x y, sprotoUnpack p x ≠ sprotoUnpack p y) ↔ ∃ b, Short p 0 b) := by
  have hshort : ∀ {x y b}, Short p x b → ∃ b', Short p y b' := by
    rintro x y b ⟨q, c, m, data, hp, hq, hm, hdata, -⟩
    exact ⟨_, q, c, m, data, hp, hq, hm, hdata, rfl⟩
  refine ⟨fun x b => sprotoUnpack_eq_some, ?_, ?_⟩
  · rintro ⟨x, y, hne⟩
    by_contra hnot
    -- without a short segment both results are that of the packing, or none
    have hsame : ∀ b, sprotoUnpack p x = some b ↔ sprotoUnpack p y = some b := by
      intro b
      have hx : ¬ Short p x b := fun h => hnot (hshort h)
      have hy : ¬ Short p y b := fun h => hnot (hshort h)
      rw [sprotoUnpack_eq_some, sprotoUnpack_eq_some, or_iff_left hx, or_iff_left hy]
    exact hne (Option.ext hsame)
  · rintro ⟨b, q, c, m, data, hp, hq, hm, hdata, rfl⟩
    refine ⟨0, 1, fun heq => ?_⟩
    have h₀ := sprotoUnpack_eq_some.mpr (Or.inr ⟨q, c, m, data, hp, hq, hm, hdata, rfl⟩ :
      Packing p _ ∨ Short p 0 _)
    have h₁ := sprotoUnpack_eq_some.mpr (Or.inr ⟨q, c, m, data, hp, hq, hm, hdata, rfl⟩ :
      Packing p _ ∨ Short p 1 _)
    have hspread := List.append_cancel_left (Option.some.inj (h₀.symm.trans (heq.trans h₁)))
    have hlength : ∀ x : UInt8, (data ++ [x]).length = (bits 8 m.toNat).count true := by
      intro x
      rw [List.length_append, List.length_singleton, hdata]
    have hlast := List.append_cancel_left (spread_injective (hlength 0) (hlength 1) hspread)
    exact absurd (List.cons.inj hlast).1 (by decide)

end FrameSync.Sproto
