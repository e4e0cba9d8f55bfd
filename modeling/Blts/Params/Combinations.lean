import Blts.Lib.MixedRadix
import Blts.Params.Variations

/-!
# All combinations of the parameter values

The passes of `generate_test_variations` compose to the Cartesian product of
the value lists, first parameter fastest.  The permutation table is the mixed
radix odometer whose limits are the lengths of the lists: row `k` holds the
digits of `k` (`fillPermutations_spec`), and the variant built from that row
selects those digits (`permutationVariants_eq`).  The other passes are lists
built by prepending and reversing, which is a map.
-/

namespace Blts.Params

open Blts.Lib Blts.Lib.MixedRadix

/-! ## The odometer -/

theorem generateNextPermutation_eq {limits : List Nat}
    (hlt : ∀ l ∈ limits, l < uintMod) :
    ∀ {ds : List Nat}, Valid limits ds →
      generateNextPermutation limits.length ds limits =
        .ok (succ limits ds) := by
  induction limits with
  | nil =>
      intro ds h
      cases h
      rfl
  | cons l ls ih =>
      intro ds h
      obtain _ | ⟨hd, hds⟩ := h
      next d ds =>
        have hl : l < uintMod := hlt l (by simp)
        have hmod : (d + 1) % uintMod = d + 1 := Nat.mod_eq_of_lt (by omega)
        simp only [List.length_cons, generateNextPermutation, succ, hmod]
        split
        next => rfl
        next =>
          rw [ih (fun l' hl' => hlt l' (by simp [hl'])) hds]
          rfl

theorem countPermutations_eq {limits : List Nat} (hPos : Positive limits) :
    ∀ {acc : Nat}, acc * limits.prod < uintMod →
      countPermutations limits.length limits acc =
        .ok (acc * limits.prod) := by
  induction limits with
  | nil => intro acc _; simp [countPermutations]
  | cons l ls ih =>
      intro acc hacc
      have hl : 0 < l := hPos l (by simp)
      have hls : Positive ls := fun l' hl' => hPos l' (by simp [hl'])
      rw [List.prod_cons, ← Nat.mul_assoc] at hacc
      have hle : acc * l ≤ acc * l * ls.prod :=
        Nat.le_mul_of_pos_right _ (List.prod_pos (R := Nat) hls)
      rw [List.length_cons, countPermutations, if_pos hl.ne',
        Nat.mod_eq_of_lt (by omega), ih hls hacc, List.prod_cons,
        Nat.mul_assoc]

/-- `memcpy` of `src` to index `i`, inside the block. -/
theorem UintBlock.memcpy_eq (b : UintBlock) (i : Nat) (src : List Nat)
    (h : i + src.length ≤ b.size) :
    ∃ b', b.memcpy i src = .ok b' ∧ b'.size = b.size ∧
      (∀ a, a < i → b'.cell a = b.cell a) ∧
      ∀ j, j < src.length → b'.cell (i + j) = src.getD j 0 := by
  refine ⟨_, if_pos h, rfl, fun a ha => ?_, fun j hj => ?_⟩
  · exact if_neg fun hia => absurd ha (by omega)
  · simp only
    rw [if_pos (by omega), Nat.add_sub_cancel_left]

/--
**The table holds the digits of its row numbers.**  From row `i` on, with the
odometer showing `i`, the loop fills `count` rows and leaves the rows before
them alone.
-/
theorem fillPermutations_spec {limits : List Nat} (hPos : Positive limits)
    (hlt : ∀ l ∈ limits, l < uintMod) (count : Nat) :
    ∀ (i : Nat) (b : UintBlock), (i + count) * limits.length ≤ b.size →
      (i + count) * limits.length < uintMod →
      ∃ b', fillPermutations limits.length limits count i (digits limits i) b =
          .ok b' ∧ b'.size = b.size ∧
        (∀ a, a < i * limits.length → b'.cell a = b.cell a) ∧
        ∀ k, i ≤ k → k < i + count → ∀ j, j < limits.length →
          b'.cell (k * limits.length + j) = (digits limits k).getD j 0 := by
  induction count with
  | zero =>
      intro i b _ _
      exact ⟨b, rfl, rfl, fun _ _ => rfl, fun k _ _ => by omega⟩
  | succ count ih =>
      intro i b hsize hmod
      have hrow : (i + (count + 1)) * limits.length =
          i * limits.length + limits.length + count * limits.length := by
        rw [Nat.add_mul, Nat.add_mul]
        omega
      have hnext : (i + 1 + count) * limits.length =
          (i + (count + 1)) * limits.length := by
        rw [Nat.add_right_comm, Nat.add_assoc]
      obtain ⟨b₁, hcopy, hsize₁, hbelow₁, hrow₁⟩ :=
        UintBlock.memcpy_eq b (i * limits.length) (digits limits i)
          (by rw [length_digits]; omega)
      obtain ⟨b₂, hfill, hsize₂, hbelow₂, hrows₂⟩ := ih (i + 1) b₁
        (by rw [hnext, hsize₁]; exact hsize) (by rw [hnext]; exact hmod)
      have hstart : (i + 1) * limits.length =
          i * limits.length + limits.length := Nat.succ_mul i limits.length
      refine ⟨b₂, ?_, hsize₂.trans hsize₁, fun a ha => ?_,
        fun k hik hk j hj => ?_⟩
      · simp only [fillPermutations]
        rw [Nat.mod_eq_of_lt (by omega), hcopy]
        simp only [bind, Except.bind]
        rw [generateNextPermutation_eq hlt (valid_digits hPos i),
          succ_digits hPos]
        exact hfill
      · rw [hbelow₂ a (by omega), hbelow₁ a ha]
      · rcases Nat.eq_or_lt_of_le hik with rfl | hlt'
        · rw [hbelow₂ _ (by omega), hrow₁ j (by rw [length_digits]; exact hj)]
        · exact hrows₂ k hlt' (by omega) j hj

/-- A permutation table whose row `k` holds the digits of `k`. -/
structure TableSpec (limits : List Nat) (perms : VarPermuteTable) : Prop where
  nVariables : perms.nVariables = limits.length
  nPermutations : perms.nPermutations = limits.prod
  size : perms.permutations.size = limits.prod * limits.length
  row : ∀ k, k < limits.prod → ∀ j, j < limits.length →
    perms.permutations.cell (k * limits.length + j) =
      (digits limits k).getD j 0

theorem generatePermutationTable_spec (arrs : VarParameterArrays)
    (hPos : Positive arrs.nValues) (hlen : arrs.nParams = arrs.nValues.length)
    (hbound : arrs.nValues.prod * arrs.nValues.length * sizeofUnsigned <
      uintMod) :
    ∃ perms, generatePermutationTable arrs = .ok perms ∧
      TableSpec arrs.nValues perms := by
  obtain ⟨nParams, limits, values⟩ := arrs
  simp only at hPos hlen hbound ⊢
  subst hlen
  have hprod : 0 < limits.prod := List.prod_pos (R := Nat) hPos
  have hrow : limits.length ≤ limits.prod * limits.length :=
    Nat.le_mul_of_pos_left _ hprod
  have hcells : limits.prod * limits.length < uintMod := by
    unfold sizeofUnsigned at hbound
    omega
  have hperm : limits.length * sizeofUnsigned % uintMod =
      limits.length * sizeofUnsigned :=
    Nat.mod_eq_of_lt (by unfold sizeofUnsigned at *; omega)
  have hdiv (a : Nat) : a * sizeofUnsigned / sizeofUnsigned = a :=
    Nat.mul_div_cancel _ (by decide)
  have htable : limits.prod * (limits.length * sizeofUnsigned) % uintMod =
      limits.prod * limits.length * sizeofUnsigned := by
    rw [← Nat.mul_assoc, Nat.mod_eq_of_lt hbound]
  have hlt : ∀ l ∈ limits, l < uintMod := by
    intro l hl
    have hle := le_prod hPos hl
    have : limits.prod ≤ limits.prod * limits.length :=
      Nat.le_mul_of_pos_right _ (List.length_pos_of_mem hl)
    omega
  have hcount : countPermutations limits.length limits 1 = .ok limits.prod := by
    have hprodlt : 1 * limits.prod < uintMod := by
      cases limits with
      | nil => decide
      | cons l ls =>
          have : (l :: ls).prod ≤ (l :: ls).prod * (l :: ls).length :=
            Nat.le_mul_of_pos_right _ (by simp)
          omega
    rw [countPermutations_eq hPos hprodlt, Nat.one_mul]
  obtain ⟨b, hfill, hsize, -, hrows⟩ := fillPermutations_spec hPos hlt
    limits.prod 0 { size := limits.prod * limits.length, cell := fun _ => 0 }
    (by simp) (by simpa using hcells)
  refine ⟨⟨limits.length, limits.prod, limits, b⟩, ?_, rfl, rfl, hsize,
    fun k hk j hj => hrows k (Nat.zero_le k) (by omega) j hj⟩
  simp only [generatePermutationTable, hperm, hdiv, List.take_length, hcount,
    bind, Except.bind, htable]
  rw [← digits_zero, hfill]
  rfl

/-! ## The variants -/

/-- The values of a variant are the ones its row of the table selects. -/
theorem variantValues_eq {perms : VarPermuteTable} {i : Nat}
    (values : List (List BoxedValue)) (ds : List Nat)
    (hvalid : Valid (values.map List.length) ds)
    (hread : ∀ j d, ds[j]? = some d → perms.permutations.read
      ((i * perms.nVariables + j) % uintMod) = .ok d) :
    ∀ count j work, count + j = values.length →
      variantValues perms values i count j work =
        .ok ((select (values.drop j) (ds.drop j)).reverse ++ work) := by
  have hlen : ds.length = values.length := by
    simpa using hvalid.length_eq
  intro count
  induction count with
  | zero =>
      intro j work hj
      rw [List.drop_eq_nil_of_le (by omega)]
      rfl
  | succ count ih =>
      intro j work hj
      have hjv : j < values.length := by omega
      have hjd : j < ds.length := by omega
      have hd : ds[j] < values[j].length := by
        have h := List.Forall₂.get hvalid (by simpa using hjd)
          (by simpa using hjv)
        simpa using h
      simp only [variantValues]
      rw [hread j ds[j] (List.getElem?_eq_getElem hjd)]
      simp only [bind, Except.bind, List.getElem?_eq_getElem hjv,
        Option.getD_some, List.getElem?_eq_getElem hd]
      rw [ih (j + 1) _ (by omega), List.drop_eq_getElem_cons hjv,
        List.drop_eq_getElem_cons hjd,
        select_cons (List.getElem?_eq_getElem hd), List.reverse_cons,
        List.append_assoc, List.singleton_append]

/-- The variant of number `k`. -/
def combination (values : List (List BoxedValue)) (k : Nat) :
    List BoxedValue :=
  select values (digits (values.map List.length) k)

/-- The rows of the table are turned into variants, prepending. -/
theorem variantsFrom_eq (perms : VarPermuteTable)
    (values : List (List BoxedValue))
    (hspec : TableSpec (values.map List.length) perms)
    (hPos : Positive (values.map List.length))
    (hbound : (values.map List.length).prod * values.length < uintMod) :
    ∀ count i varlist, count + i = (values.map List.length).prod →
      variantsFrom perms values count i varlist =
        .ok (((List.range' i count).map (combination values)).reverse ++
          varlist) := by
  intro count
  induction count with
  | zero => intro i varlist _; rfl
  | succ count ih =>
      intro i varlist hi
      have hn : perms.nVariables = values.length := by
        rw [hspec.nVariables, List.length_map]
      have hvals : variantValues perms values i perms.nVariables 0 [] =
          .ok ((combination values i).reverse ++ []) := by
        refine variantValues_eq values _ (valid_digits hPos i) ?_ _ 0 [] ?_
        · intro j d hjd
          have hj : j < values.length := by
            have := (List.getElem?_eq_some_iff.mp hjd).1
            simpa using this
          have hcell : i * values.length + j <
              (values.map List.length).prod * values.length :=
            calc i * values.length + j
                < i * values.length + values.length := by omega
              _ = (i + 1) * values.length := (Nat.succ_mul _ _).symm
              _ ≤ _ := Nat.mul_le_mul_right _ (by omega)
          have hrow := hspec.row i (by omega) j (by simpa using hj)
          rw [hn, Nat.mod_eq_of_lt (by omega), UintBlock.read,
            if_pos (by rw [hspec.size, List.length_map]; exact hcell)]
          rw [List.length_map] at hrow
          rw [hrow, List.getD_eq_getElem?_getD, hjd, Option.getD_some]
        · omega
      simp only [variantsFrom]
      rw [hvals]
      simp only [bind, Except.bind, List.append_nil, List.reverse_reverse]
      rw [ih (i + 1) _ (by omega), List.range'_succ, List.map_cons,
        List.reverse_cons, List.append_assoc, List.singleton_append]

/--
**The passes compose to the Cartesian product.**  Nonempty value lists whose
index table fits in 32 bits give one variant for each number below the product
of their lengths, in order.
-/
theorem permutationVariants_eq (params : List TestParam)
    (hne : ∀ p ∈ params, p.values ≠ [])
    (hbound : (params.map fun p => p.values.length).prod * params.length *
      sizeofUnsigned < uintMod) :
    permutationVariants params = .ok ((List.range
      (params.map fun p => p.values.length).prod).map
        (combination (params.map TestParam.values))) := by
  have hPos : Positive (params.map fun p => p.values.length) := by
    intro l hl
    obtain ⟨p, hp, rfl⟩ := List.mem_map.mp hl
    exact List.length_pos_of_ne_nil (hne p hp)
  have hlengths : (params.map TestParam.values).map List.length =
      params.map fun p => p.values.length := by
    simp [Function.comp_def]
  have hlen : params.length % uintMod = params.length := by
    refine Nat.mod_eq_of_lt ?_
    have : params.length ≤ (params.map fun p => p.values.length).prod *
        params.length :=
      Nat.le_mul_of_pos_left _ (List.prod_pos (R := Nat) hPos)
    unfold sizeofUnsigned at hbound
    omega
  have hsmall : ∀ p ∈ params, p.values.length % uintMod = p.values.length := by
    intro p hp
    refine Nat.mod_eq_of_lt ?_
    have hle := le_prod hPos (List.mem_map.mpr ⟨p, hp, rfl⟩)
    have : (params.map fun p => p.values.length).prod ≤
        (params.map fun p => p.values.length).prod * params.length :=
      Nat.le_mul_of_pos_right _ (List.length_pos_of_mem hp)
    unfold sizeofUnsigned at hbound
    omega
  have hflat : testParamListFlatten params =
      { nParams := params.length
        nValues := params.map fun p => p.values.length
        values := params.map TestParam.values } := by
    simp only [testParamListFlatten, hlen, List.take_length,
      VarParameterArrays.mk.injEq, true_and]
    refine ⟨List.map_congr_left hsmall, List.map_congr_left fun p hp => ?_⟩
    rw [hsmall p hp, List.take_length]
  obtain ⟨perms, htable, hspec⟩ := generatePermutationTable_spec
    { nParams := params.length
      nValues := params.map fun p => p.values.length
      values := params.map TestParam.values }
    hPos (by simp) (by simpa using hbound)
  have hvariants := variantsFrom_eq perms (params.map TestParam.values)
    (by rw [hlengths]; exact hspec)
    (by rw [hlengths]; exact hPos)
    (by rw [hlengths, List.length_map]; unfold sizeofUnsigned at hbound; omega)
    perms.nPermutations 0 []
    (by rw [hlengths, hspec.nPermutations]; rfl)
  simp only [permutationVariants, hflat, htable, bind, Except.bind,
    generatePermutationVariants]
  rw [hvariants, hspec.nPermutations]
  simp [pure, Except.pure, List.range_eq_range']

end Blts.Params

/-!
## The size of the permutation table

The number of rows is the product of the numbers of values, where a list without values counts
as one.  The product and the size of the table in bytes are computed in variables of type
`unsigned`, and nothing checks that they fit: thirty-two parameters of two values make no rows
at all.
-/

namespace Blts.Params

open Blts.Lib.MixedRadix

/-- The rows that a list of value counts makes. -/
def rowsOf (counts : List Nat) : Nat := (counts.map fun c => if c ≠ 0 then c else 1).prod

/-! ## What the source computes -/

/-- `perm_sz` in `generate_permutation_table`. -/
def permSz (arrs : VarParameterArrays) : Nat := arrs.nParams * sizeofUnsigned % uintMod

/-- `perms->n_permutations`. -/
def nPermutations (arrs : VarParameterArrays) : Except Fault Nat :=
  countPermutations arrs.nParams (arrs.nValues.take (permSz arrs / sizeofUnsigned)) 1

/-- `perm_table_sz`. -/
def permTableSz (arrs : VarParameterArrays) : Except Fault Nat :=
  (nPermutations arrs).map fun n => n * permSz arrs % uintMod

/-- The table is filled row by row, in a block of `perm_table_sz` bytes. -/
theorem generatePermutationTable_eq (arrs : VarParameterArrays) :
    generatePermutationTable arrs = (do
      let count ← nPermutations arrs
      let limits := arrs.nValues.take (permSz arrs / sizeofUnsigned)
      let permutations ← fillPermutations arrs.nParams limits count 0
        (List.replicate (permSz arrs / sizeofUnsigned) 0)
        { size := count * permSz arrs % uintMod / sizeofUnsigned, cell := fun _ => 0 }
      return ⟨arrs.nParams, count, limits, permutations⟩) := rfl

/-- The numbers of values of the parameters. -/
def valueCounts (params : List TestParam) : List Nat := params.map fun p => p.values.length

/-- Neither quantity wraps around.  There is no error that the generation could be refused
with. -/
def CountsExactly (params : List TestParam) : Prop :=
  nPermutations (testParamListFlatten params) = .ok (rowsOf (valueCounts params)) ∧
    permTableSz (testParamListFlatten params) =
      .ok (rowsOf (valueCounts params) * (params.length * sizeofUnsigned))

/-! ## Products -/

@[simp] theorem rowsOf_nil : rowsOf [] = 1 := rfl

theorem rowsOf_cons (c : Nat) (cs : List Nat) :
    rowsOf (c :: cs) = (if c ≠ 0 then c else 1) * rowsOf cs := by
  simp [rowsOf]

theorem rowsOf_pos (counts : List Nat) : 0 < rowsOf counts := by
  induction counts with
  | nil => exact Nat.one_pos
  | cons c cs ih =>
      rw [rowsOf_cons]
      refine Nat.mul_pos ?_ ih
      split <;> omega

/-- No count is more than the product. -/
theorem le_rowsOf {counts : List Nat} {c : Nat} (h : c ∈ counts) : c ≤ rowsOf counts := by
  induction counts with
  | nil => cases h
  | cons d ds ih =>
      rw [rowsOf_cons]
      rcases List.mem_cons.mp h with rfl | h
      · have hle : c ≤ if c ≠ 0 then c else 1 := by split <;> omega
        exact hle.trans (Nat.le_mul_of_pos_right _ (rowsOf_pos ds))
      · exact (ih h).trans (Nat.le_mul_of_pos_left _ (by split <;> omega))

/-- The loop computes the product modulo `2 ^ 32`. -/
theorem countPermutations_mod (limits : List Nat) :
    ∀ {acc : Nat}, acc < uintMod →
      countPermutations limits.length limits acc = .ok (acc * rowsOf limits % uintMod) := by
  induction limits with
  | nil =>
      intro acc hacc
      rw [rowsOf_nil, Nat.mul_one, Nat.mod_eq_of_lt hacc]
      rfl
  | cons l ls ih =>
      intro acc _
      rw [List.length_cons, countPermutations, ih (Nat.mod_lt _ (by decide)), rowsOf_cons,
        ← Nat.mul_assoc, Nat.mod_mul_mod]

/-! ## When nothing wraps -/

theorem testParamListFlatten_eq {params : List TestParam} (hlen : params.length < uintMod)
    (hcounts : ∀ c ∈ valueCounts params, c < uintMod) :
    testParamListFlatten params =
      ⟨params.length, valueCounts params, params.map TestParam.values⟩ := by
  have hsmall : ∀ p ∈ params, p.values.length % uintMod = p.values.length :=
    fun p hp => Nat.mod_eq_of_lt (hcounts _ (List.mem_map_of_mem hp))
  simp only [testParamListFlatten, Nat.mod_eq_of_lt hlen, List.take_length,
    VarParameterArrays.mk.injEq, true_and]
  refine ⟨List.map_congr_left hsmall, List.map_congr_left fun p hp => ?_⟩
  rw [hsmall p hp, List.take_length]

/--
**Nothing wraps exactly if the table fits.**  The number of rows and the size of the table are
right if and only if the mathematical size in bytes is below `2 ^ 32`.
-/
theorem countsExactly_iff (params : List TestParam) :
    CountsExactly params ↔
      rowsOf (valueCounts params) * (params.length * sizeofUnsigned) < 2 ^ 32 := by
  constructor
  · rintro ⟨hrows, hsize⟩
    rw [permTableSz, hrows] at hsize
    have heq := Except.ok.inj hsize
    rw [← heq]
    exact Nat.mod_lt _ (by decide)
  · intro hbound
    have hbound : rowsOf (valueCounts params) * (params.length * sizeofUnsigned) < uintMod :=
      hbound
    have hpos := rowsOf_pos (valueCounts params)
    have hperm : params.length * sizeofUnsigned < uintMod :=
      (Nat.le_mul_of_pos_left _ hpos).trans_lt hbound
    have hlen : params.length < uintMod :=
      (Nat.le_mul_of_pos_right _ (by decide)).trans_lt hperm
    have hrows : rowsOf (valueCounts params) < uintMod := by
      cases params with
      | nil => decide
      | cons p ps =>
          refine (Nat.le_mul_of_pos_right _ ?_).trans_lt hbound
          exact Nat.mul_pos (Nat.succ_pos _) (by decide)
    have hflat := testParamListFlatten_eq hlen fun c hc => (le_rowsOf hc).trans_lt hrows
    have hsz : permSz (testParamListFlatten params) = params.length * sizeofUnsigned := by
      rw [permSz, hflat]
      exact Nat.mod_eq_of_lt hperm
    have hlength : (valueCounts params).length = params.length := List.length_map _
    have hcount : nPermutations (testParamListFlatten params) =
        .ok (rowsOf (valueCounts params)) := by
      rw [nPermutations, hsz, Nat.mul_div_cancel _ (by decide), hflat, ← hlength,
        List.take_length, countPermutations_mod _ (by decide), Nat.one_mul,
        Nat.mod_eq_of_lt hrows]
    refine ⟨hcount, ?_⟩
    rw [permTableSz, hcount, hsz]
    exact congrArg Except.ok (Nat.mod_eq_of_lt hbound)

/-- A parameter with the values 0 and 1, which the test takes thirty-two times. -/
def thirtyTwoTimes : SymbolTable where
  cells := some (List.map some [
    { key := "a", data := .param
        { type := .int, args := .constlist (some [.long 0, .long 1]) } },
    { key := "T", data := .test
        { TestDef.empty with settings := [.paramlist (List.replicate 32 0)] } }])
  top := 2

/-- They make `2 ^ 32` rows, which are counted as none: there are no variants. -/
theorem thirtyTwo_wraps :
    ¬ CountsExactly (List.replicate 32 ⟨0, [.long 0, .long 1]⟩) ∧
      bltsConfigGenerateTestVariations thirtyTwoTimes (fun _ _ => none) 1 "T" .combinations =
        .ok [] := by
  refine ⟨fun h => ?_, by decide +kernel⟩
  have hrows : nPermutations (testParamListFlatten
      (List.replicate 32 ⟨0, [.long 0, .long 1]⟩)) = .ok 0 := by decide +kernel
  have hzero := hrows.symm.trans h.1
  exact absurd (Except.ok.inj hzero) (by decide +kernel)

end Blts.Params
