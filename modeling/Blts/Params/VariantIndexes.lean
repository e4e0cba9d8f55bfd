import Blts.Params.Combinations
import Blts.Params.VariantValues

/-!
# The indices of the permutation table

An empty list of values has one row like a list of one value, but no value that the row could
select.  So the first variant reads past the end of the list, unless there are no variants
because the number of rows wraps around to zero, or the table itself is overrun before.

The lists are made for the parameters of the test, and for the arguments of every generator
that is called for one of them.  `testPasses` are all of them, in the order in which a run
makes its passes over them; how many values each parameter has can be read off the symbol table
(`valueCount`).
-/

namespace Blts.Params

open Blts.Lib.MixedRadix

/-! ## The table for any counts -/

/-- `n_values` as the counters hold it. -/
def limitsOf (counts : List Nat) : List Nat :=
  (counts.take (counts.length % uintMod)).map (· % uintMod)

/-- `n_permutations` as the variable holds it. -/
def countedRows (counts : List Nat) : Nat := rowsOf (limitsOf counts) % uintMod

/-- The number of variables or the size of the table wraps around, so that an array is
overrun. -/
def Overruns (counts : List Nat) : Prop :=
  uintMod ≤ (limitsOf counts).length * sizeofUnsigned ∨
    uintMod ≤ countedRows counts * ((limitsOf counts).length * sizeofUnsigned)

/-- Every list has a value, or none of them is read. -/
def Indexable (counts : List Nat) : Prop :=
  (∀ c ∈ limitsOf counts, 0 < c) ∨ countedRows counts = 0 ∨ Overruns counts

instance (counts : List Nat) : Decidable (Overruns counts) :=
  inferInstanceAs (Decidable (_ ∨ _))

instance (counts : List Nat) : Decidable (Indexable counts) :=
  inferInstanceAs (Decidable (_ ∨ _ ∨ _))

/-- Each access `values[j][permutations[i * n + j]]` has an index below `n_values[j]`. -/
def IndexesInBounds (params : List TestParam) : Prop :=
  ∀ perms, generatePermutationTable (testParamListFlatten params) = .ok perms →
    ∀ i j, i < perms.nPermutations → j < perms.nVariables →
      ∃ index n, perms.permutations.read ((i * perms.nVariables + j) % uintMod) = .ok index ∧
        (testParamListFlatten params).nValues[j]? = some n ∧ index < n

theorem limitsOf_lt (counts : List Nat) : ∀ l ∈ limitsOf counts, l < uintMod := by
  intro l hl
  obtain ⟨c, _, rfl⟩ := List.mem_map.mp hl
  exact Nat.mod_lt _ (by decide)

theorem length_limitsOf (counts : List Nat) :
    (limitsOf counts).length = counts.length % uintMod := by
  rw [limitsOf, List.length_map, List.length_take, Nat.min_eq_left (Nat.mod_le _ _)]

/-- What `test_param_list_flatten` counts. -/
theorem flatten_counts (params : List TestParam) :
    (testParamListFlatten params).nParams = (limitsOf (valueCounts params)).length ∧
      (testParamListFlatten params).nValues = limitsOf (valueCounts params) := by
  rw [length_limitsOf, valueCounts, List.length_map]
  refine ⟨rfl, ?_⟩
  rw [limitsOf, List.length_map, ← List.map_take, List.map_map]
  rfl

/-- The odometer moves on, whatever its limits. -/
theorem generateNextPermutation_ok (limits : List Nat) :
    ∀ {ds : List Nat}, ds.length = limits.length →
      ∃ ds', generateNextPermutation limits.length ds limits = .ok ds' ∧
        ds'.length = limits.length := by
  induction limits with
  | nil =>
      intro ds h
      exact ⟨ds, rfl, h⟩
  | cons l ls ih =>
      intro ds h
      cases ds with
      | nil => cases h
      | cons d ds =>
          have hds : ds.length = ls.length := Nat.succ.inj h
          obtain ⟨ds', hds', hlen⟩ := ih hds
          rw [List.length_cons, generateNextPermutation]
          split
          · exact ⟨_, rfl, by simp [hds]⟩
          · exact ⟨0 :: ds', by rw [hds']; rfl, by simp [hlen]⟩

/-- Rows that fit are written, the first of them with the odometer as it stands. -/
theorem fillPermutations_ok (limits : List Nat) (count : Nat) :
    ∀ {i : Nat} {current : List Nat} {b : UintBlock}, current.length = limits.length →
      (i + count) * limits.length ≤ b.size → b.size < uintMod →
      ∃ b', fillPermutations limits.length limits count i current b = .ok b' ∧
        b'.size = b.size ∧ (∀ a, a < i * limits.length → b'.cell a = b.cell a) ∧
        (0 < count → ∀ j, j < limits.length →
          b'.cell (i * limits.length + j) = current.getD j 0) := by
  induction count with
  | zero =>
      intro i current b _ _ _
      exact ⟨b, rfl, rfl, fun _ _ => rfl, fun h => absurd h (Nat.lt_irrefl 0)⟩
  | succ count ih =>
      intro i current b hcurrent hsize hmod
      have hrow : (i + (count + 1)) * limits.length =
          i * limits.length + limits.length + count * limits.length := by
        rw [Nat.add_mul, Nat.add_mul]
        omega
      have hnext : (i + 1 + count) * limits.length = (i + (count + 1)) * limits.length := by
        rw [Nat.add_right_comm, Nat.add_assoc]
      have hstart : (i + 1) * limits.length = i * limits.length + limits.length :=
        Nat.succ_mul i limits.length
      obtain ⟨b₁, hcopy, hsize₁, hbelow₁, hrow₁⟩ :=
        UintBlock.memcpy_eq b (i * limits.length) current (by rw [hcurrent]; omega)
      obtain ⟨current', hcurrent', hlen⟩ := generateNextPermutation_ok limits hcurrent
      obtain ⟨b₂, hfill, hsize₂, hbelow₂, -⟩ := ih (i := i + 1) (b := b₁) hlen
        (by rw [hnext, hsize₁]; exact hsize) (by rw [hsize₁]; exact hmod)
      refine ⟨b₂, ?_, hsize₂.trans hsize₁, fun a ha => ?_, fun _ j hj => ?_⟩
      · rw [fillPermutations, Nat.mod_eq_of_lt (by omega), hcopy]
        simp only [bind, Except.bind]
        rw [hcurrent']
        exact hfill
      · rw [hbelow₂ a (by omega), hbelow₁ a ha]
      · rw [hbelow₂ _ (by omega), hrow₁ j (by rw [hcurrent]; exact hj)]

/-- Rows that do not fit run past the end of the block. -/
theorem fillPermutations_overrun (limits : List Nat) (count : Nat) :
    ∀ {i : Nat} {current : List Nat} {b : UintBlock}, current.length = limits.length →
      i * limits.length ≤ b.size → b.size < (i + count) * limits.length → b.size < uintMod →
      fillPermutations limits.length limits count i current b = .error .outOfBounds := by
  induction count with
  | zero =>
      intro i current b _ hle hlt _
      exact absurd hle (by simpa using hlt)
  | succ count ih =>
      intro i current b hcurrent hle hlt hmod
      have hstart : (i + 1) * limits.length = i * limits.length + limits.length :=
        Nat.succ_mul i limits.length
      rw [fillPermutations, Nat.mod_eq_of_lt (by omega)]
      by_cases hfits : i * limits.length + limits.length ≤ b.size
      · obtain ⟨b₁, hcopy, hsize₁, -, -⟩ :=
          UintBlock.memcpy_eq b (i * limits.length) current (by rw [hcurrent]; exact hfits)
        obtain ⟨current', hcurrent', hlen⟩ := generateNextPermutation_ok limits hcurrent
        rw [hcopy]
        simp only [bind, Except.bind]
        rw [hcurrent']
        refine ih (i := i + 1) (b := b₁) hlen (by rw [hsize₁]; omega) ?_
          (by rw [hsize₁]; exact hmod)
        rw [hsize₁, Nat.add_right_comm, Nat.add_assoc]
        exact hlt
      · rw [UintBlock.memcpy, if_neg (by rw [hcurrent]; exact hfits)]
        rfl

/-- The loop reads past an array that is too short. -/
theorem countPermutations_short (n : Nat) :
    ∀ {limits : List Nat} {acc : Nat}, limits.length < n →
      countPermutations n limits acc = .error .outOfBounds := by
  induction n with
  | zero => exact fun h => absurd h (Nat.not_lt_zero _)
  | succ n ih =>
      intro limits acc h
      cases limits with
      | nil => rfl
      | cons l ls => exact ih (Nat.lt_of_succ_lt_succ h)

section

variable (params : List TestParam)

/-- The number of rows, where the array of limits is long enough. -/
theorem nPermutations_flatten
    (h : (limitsOf (valueCounts params)).length * sizeofUnsigned < uintMod) :
    permSz (testParamListFlatten params) =
        (limitsOf (valueCounts params)).length * sizeofUnsigned ∧
      nPermutations (testParamListFlatten params) = .ok (countedRows (valueCounts params)) := by
  obtain ⟨hparams, hvalues⟩ := flatten_counts params
  have hsz : permSz (testParamListFlatten params) =
      (limitsOf (valueCounts params)).length * sizeofUnsigned := by
    rw [permSz, hparams]
    exact Nat.mod_eq_of_lt h
  refine ⟨hsz, ?_⟩
  rw [nPermutations, hsz, Nat.mul_div_cancel _ (by decide), hparams, hvalues, List.take_length,
    countPermutations_mod _ (by decide), Nat.one_mul]
  rfl

/-- The table, where nothing is overrun. -/
theorem generatePermutationTable_ok (h : ¬ Overruns (valueCounts params)) :
    ∃ perms, generatePermutationTable (testParamListFlatten params) = .ok perms ∧
      perms.nVariables = (limitsOf (valueCounts params)).length ∧
      perms.nPermutations = countedRows (valueCounts params) ∧
      perms.permutations.size =
        countedRows (valueCounts params) * (limitsOf (valueCounts params)).length ∧
      (0 < countedRows (valueCounts params) →
        ∀ j, j < (limitsOf (valueCounts params)).length → perms.permutations.cell j = 0) ∧
      (Positive (limitsOf (valueCounts params)) →
        ∀ i, i < countedRows (valueCounts params) →
          ∀ j, j < (limitsOf (valueCounts params)).length →
            perms.permutations.cell (i * (limitsOf (valueCounts params)).length + j) =
              (digits (limitsOf (valueCounts params)) i).getD j 0) := by
  rw [Overruns, not_or, Nat.not_le, Nat.not_le] at h
  obtain ⟨hvars, htable⟩ := h
  obtain ⟨hsz, hcount⟩ := nPermutations_flatten params hvars
  obtain ⟨hparams, hvalues⟩ := flatten_counts params
  have hlt := limitsOf_lt (valueCounts params)
  generalize limitsOf (valueCounts params) = limits at *
  generalize countedRows (valueCounts params) = rows at *
  have hsize : rows * (limits.length * sizeofUnsigned) % uintMod / sizeofUnsigned =
      rows * limits.length := by
    rw [Nat.mod_eq_of_lt htable, ← Nat.mul_assoc, Nat.mul_div_cancel _ (by decide)]
  have hcells : rows * limits.length < uintMod := by
    rw [← Nat.mul_assoc] at htable
    unfold sizeofUnsigned at htable
    omega
  have hcurrent : (List.replicate limits.length 0).length = limits.length := List.length_replicate
  obtain ⟨b, hfill, hb, -, hfirst⟩ := fillPermutations_ok limits rows (i := 0)
    (b := { size := rows * limits.length, cell := fun _ => 0 }) hcurrent (by simp) hcells
  refine ⟨⟨limits.length, rows, limits, b⟩, ?_, rfl, rfl, hb, fun hpos j hj => ?_,
    fun hPos i hi j hj => ?_⟩
  · rw [generatePermutationTable_eq, hcount, hsz, hparams, hvalues,
      Nat.mul_div_cancel _ (by decide), List.take_length]
    simp only [bind, Except.bind, hsize]
    rw [hfill]
    rfl
  · have hzero := hfirst hpos j hj
    rw [Nat.zero_mul, Nat.zero_add] at hzero
    rw [hzero, List.getD_eq_getElem?_getD, List.getElem?_replicate, if_pos hj]
    rfl
  · obtain ⟨b', hfill', -, -, hrows⟩ := fillPermutations_spec hPos hlt rows 0
      { size := rows * limits.length, cell := fun _ => 0 } (by simp) (by simpa using hcells)
    rw [digits_zero, hfill] at hfill'
    obtain rfl := Except.ok.inj hfill'
    exact hrows i (Nat.zero_le i) (by omega) j hj

/-- An array is overrun before there is a table. -/
theorem generatePermutationTable_overrun (h : Overruns (valueCounts params)) :
    generatePermutationTable (testParamListFlatten params) = .error .outOfBounds := by
  obtain ⟨hparams, hvalues⟩ := flatten_counts params
  by_cases hvars : (limitsOf (valueCounts params)).length * sizeofUnsigned < uintMod
  · have htable := h.resolve_left (Nat.not_le.mpr hvars)
    obtain ⟨hsz, hcount⟩ := nPermutations_flatten params hvars
    generalize limitsOf (valueCounts params) = limits at *
    generalize countedRows (valueCounts params) = rows at *
    have hmod := Nat.mod_lt (rows * (limits.length * sizeofUnsigned))
      (by decide : 0 < uintMod)
    rw [generatePermutationTable_eq, hcount, hsz, hparams, hvalues,
      Nat.mul_div_cancel _ (by decide), List.take_length]
    simp only [bind, Except.bind]
    rw [fillPermutations_overrun limits rows (by simp) (by simp) ?_ ?_]
    · show rows * (limits.length * sizeofUnsigned) % uintMod / sizeofUnsigned <
        (0 + rows) * limits.length
      rw [Nat.zero_add]
      refine Nat.div_lt_of_lt_mul ?_
      rw [Nat.mul_comm sizeofUnsigned, Nat.mul_assoc]
      omega
    · show rows * (limits.length * sizeofUnsigned) % uintMod / sizeofUnsigned < uintMod
      exact (Nat.div_le_self _ _).trans_lt hmod
  · have hlen := length_limitsOf (valueCounts params)
    have hlt := Nat.mod_lt (valueCounts params).length (by decide : 0 < uintMod)
    have hsz : permSz (testParamListFlatten params) / sizeofUnsigned <
        (limitsOf (valueCounts params)).length := by
      rw [permSz, hparams]
      unfold sizeofUnsigned uintMod at *
      omega
    rw [generatePermutationTable_eq, nPermutations, hparams, hvalues,
      countPermutations_short _ (by rw [List.length_take]; omega)]
    rfl

/-- The indices of one table are in bounds. -/
theorem indexesInBounds_iff :
    IndexesInBounds params ↔ Indexable (valueCounts params) := by
  obtain ⟨hparams, hvalues⟩ := flatten_counts params
  by_cases hover : Overruns (valueCounts params)
  · refine ⟨fun _ => .inr (.inr hover), fun _ perms hperms => ?_⟩
    rw [generatePermutationTable_overrun params hover] at hperms
    cases hperms
  obtain ⟨perms, hperms, hvars, hrows, hsize, hzero, hdigits⟩ :=
    generatePermutationTable_ok params hover
  rw [Overruns, not_or, Nat.not_le, Nat.not_le, ← Nat.mul_assoc] at hover
  constructor
  · intro hbounds
    by_cases hnone : countedRows (valueCounts params) = 0
    · exact .inr (.inl hnone)
    refine .inl fun c hc => ?_
    obtain ⟨j, hj, rfl⟩ := List.mem_iff_getElem.mp hc
    obtain ⟨index, n, _, hn, hlt⟩ := hbounds perms hperms 0 j (by omega) (by omega)
    rw [hvalues, List.getElem?_eq_getElem hj] at hn
    cases hn
    omega
  · intro hindexable perms' hperms' i j hi hj
    rw [hperms] at hperms'
    obtain rfl := Except.ok.inj hperms'
    have hpos : Positive (limitsOf (valueCounts params)) := by
      rcases hindexable with h | h | h
      · exact h
      · omega
      · unfold Overruns at h
        rw [← Nat.mul_assoc] at h
        omega
    rw [hvars] at hj
    rw [hrows] at hi
    have hcell : i * (limitsOf (valueCounts params)).length + j <
        countedRows (valueCounts params) * (limitsOf (valueCounts params)).length :=
      calc i * (limitsOf (valueCounts params)).length + j
          < i * (limitsOf (valueCounts params)).length +
            (limitsOf (valueCounts params)).length := by omega
        _ = (i + 1) * (limitsOf (valueCounts params)).length := (Nat.succ_mul _ _).symm
        _ ≤ _ := Nat.mul_le_mul_right _ hi
    have hmod : (i * (limitsOf (valueCounts params)).length + j) % uintMod =
        i * (limitsOf (valueCounts params)).length + j := by
      refine Nat.mod_eq_of_lt ?_
      unfold sizeofUnsigned at hover
      omega
    have hdigit : (digits (limitsOf (valueCounts params)) i).getD j 0 <
        (limitsOf (valueCounts params))[j] := by
      have hvalid := List.Forall₂.get (valid_digits hpos i)
        (by rw [length_digits]; exact hj) hj
      rw [List.getD_eq_getElem?_getD,
        List.getElem?_eq_getElem (by rw [length_digits]; exact hj), Option.getD_some]
      exact hvalid
    refine ⟨_, _, ?_, by rw [hvalues, List.getElem?_eq_getElem hj], hdigit⟩
    rw [hvars, hmod, UintBlock.read, if_pos (by rw [hsize]; exact hcell),
      hdigits hpos i hi j hj]

end

/-! ## How many values a parameter has -/

/-- The number of values that are taken from a list of them. -/
def takenValues (style : VariationStyle) (n : Nat) : Nat :=
  match style with
  | .combinations | .allpairs => n
  | .first | .last => min 1 n

/-- The number of values of a symbol: none for a symbol that is no parameter, and for a
parameter whose generator is not registered. -/
def valueCount (table : SymbolTable) (style : VariationStyle) : Nat → SymRef → Nat
  | 0, _ => 0
  | fuel + 1, sym =>
      match table.entry? sym with
      | some { data := .param definition, .. } =>
          match definition.args with
          | .constlist values => takenValues style (values.getD []).length
          | .range low high =>
              match style with
              | .combinations | .allpairs => 1 + high.toList.length
              | .first => low.toList.length
              | .last => high.toList.length
          | .generated fnName syms =>
              match lookupEntry table fnName with
              | some { data := .generatorFn _, .. } =>
                  countedRows (syms.map (valueCount table style fuel))
              | _ => 0
      | _ => 0

theorem length_variantsFrom {perms : VarPermuteTable} {values : List (List BoxedValue)}
    (count : Nat) : ∀ {i : Nat} {varlist rows : List (List BoxedValue)},
      variantsFrom perms values count i varlist = .ok rows →
      rows.length = count + varlist.length := by
  induction count with
  | zero =>
      intro i varlist rows h
      cases h
      rw [Nat.zero_add]
  | succ count ih =>
      intro i varlist rows h
      obtain ⟨work, _, h⟩ := exists_of_bind_eq_ok h
      rw [ih h, List.length_cons]
      omega

/-- There is a variant for every row. -/
theorem length_permutationVariants {params : List TestParam} {variants : List (List BoxedValue)}
    (h : permutationVariants params = .ok variants) :
    variants.length = countedRows (valueCounts params) := by
  obtain ⟨perms, hperms, h⟩ := exists_of_bind_eq_ok h
  obtain ⟨rows, hrows, h⟩ := exists_of_bind_eq_ok h
  cases h
  have hover : ¬ Overruns (valueCounts params) := by
    intro hover
    rw [generatePermutationTable_overrun params hover] at hperms
    cases hperms
  obtain ⟨perms', hperms', -, hcount, -⟩ := generatePermutationTable_ok params hover
  rw [hperms] at hperms'
  obtain rfl := Except.ok.inj hperms'
  rw [List.length_reverse, length_variantsFrom _ hrows, hcount]
  rfl

theorem length_callGenFunc {genFunc : List BoxedValue → Option BoxedValue}
    (variants : List (List BoxedValue)) : ∀ {list vs : List BoxedValue},
      callGenFunc genFunc variants list = .ok vs → vs.length = variants.length + list.length := by
  induction variants with
  | nil =>
      intro list vs h
      cases h
      rw [List.length_nil, Nat.zero_add]
  | cons values variants ih =>
      intro list vs h
      unfold callGenFunc at h
      cases hgen : genFunc values with
      | none =>
          rw [hgen] at h
          cases h
      | some bv =>
          rw [hgen] at h
          rw [ih h, List.length_cons, List.length_cons]
          omega

/-- What a generator takes, in the order of its arguments. -/
theorem generatorParams_eq {generate : SymRef → Except Fault (List BoxedValue)}
    (syms : List SymRef) : ∀ {acc params : List TestParam},
      generatorParams generate syms acc = .ok params →
      ∃ new : List TestParam, params = new.reverse ++ acc ∧ new.map TestParam.param = syms ∧
        ∀ p ∈ new, generate p.param = .ok p.values := by
  induction syms with
  | nil =>
      intro acc params h
      cases h
      exact ⟨[], rfl, rfl, fun p hp => absurd hp List.not_mem_nil⟩
  | cons s syms ih =>
      intro acc params h
      obtain ⟨values, hvalues, h⟩ := exists_of_bind_eq_ok h
      obtain ⟨new, rfl, hsyms, hnew⟩ := ih h
      refine ⟨⟨s, values⟩ :: new, by simp, by simp [hsyms], fun p hp => ?_⟩
      rcases List.mem_cons.mp hp with rfl | hp
      · exact hvalues
      · exact hnew p hp

variable {table : SymbolTable} {gen : GenFuncs} {style : VariationStyle}

theorem length_generateConstlistVariations {source : Option (List BoxedValue)}
    {vs : List BoxedValue} (h : generateConstlistVariations source style = .ok vs) :
    vs.length = takenValues style (source.getD []).length := by
  cases source with
  | none => cases h
  | some values =>
      cases style with
      | combinations =>
          cases h
          simp [takenValues]
      | allpairs =>
          cases h
          simp [takenValues]
      | first =>
          cases h
          cases values <;> simp [takenValues]
      | last =>
          cases h
          cases hlast : values.getLast? with
          | none =>
              rw [List.getLast?_eq_none_iff.mp hlast]
              rfl
          | some v =>
              have hpos : 0 < values.length :=
                List.length_pos_of_mem (List.mem_of_getLast? hlast)
              simp only [Option.toList_some, List.length_singleton, takenValues,
                Option.getD_some]
              omega

theorem length_generateRangeVariations {low high : Option BoxedValue} {vs : List BoxedValue} :
    generateRangeVariations low high style = .ok vs →
      vs.length =
        match style with
        | .combinations | .allpairs => 1 + high.toList.length
        | .first => low.toList.length
        | .last => high.toList.length := by
  intro h
  unfold generateRangeVariations at h
  cases style <;> cases low <;> cases h
  case combinations.some.refl => simp [Nat.add_comm]
  case allpairs.some.refl => simp [Nat.add_comm]
  all_goals rfl

/-- A generator is called once for each row of the table of its arguments. -/
theorem length_generateGeneratedVariations {generate : SymRef → Except Fault (List BoxedValue)}
    {count : SymRef → Nat} (hgenerate : ∀ {sym : SymRef} {vs : List BoxedValue},
      generate sym = .ok vs → vs.length = count sym) {fnName : String} {syms : List SymRef}
    {vs : List BoxedValue} :
    generateGeneratedVariations table gen generate fnName syms = .ok vs →
      vs.length =
        match lookupEntry table fnName with
        | some { data := .generatorFn _, .. } => countedRows (syms.map count)
        | _ => 0 := by
  intro h
  cases hfn : lookupEntry table fnName with
  | none =>
      simp only [generateGeneratedVariations, hfn] at h
      cases h
      rfl
  | some e =>
      obtain ⟨fnKey, data⟩ := e
      cases data with
      | generatorFn genFunc =>
          simp only [generateGeneratedVariations, hfn] at h
          obtain ⟨params, hparams, h⟩ := exists_of_bind_eq_ok h
          obtain ⟨variants, hvariants, h⟩ := exists_of_bind_eq_ok h
          obtain ⟨list, hlist, h⟩ := exists_of_bind_eq_ok h
          cases h
          obtain ⟨new, rfl, hsyms, hnew⟩ := generatorParams_eq syms hparams
          have hcounts : valueCounts (new.reverse ++ []).reverse = syms.map count := by
            rw [List.append_nil, List.reverse_reverse, ← hsyms, List.map_map]
            exact List.map_congr_left fun p hp => hgenerate (hnew p hp)
          rw [List.length_reverse, length_callGenFunc _ hlist, List.length_nil, Nat.add_zero,
            length_permutationVariants hvariants, hcounts]
      | _ =>
          simp only [generateGeneratedVariations, hfn] at h
          cases h
          rfl

/-- **The number of values** of a parameter is the one that the symbol table tells. -/
theorem length_generateVariations (fuel : Nat) : ∀ {sym : SymRef} {vs : List BoxedValue},
    generateVariations table gen style fuel sym = .ok vs →
    vs.length = valueCount table style fuel sym := by
  induction fuel with
  | zero => exact fun h => by cases h
  | succ fuel ih =>
      intro sym vs h
      cases hentry : table.entry? sym with
      | none =>
          simp only [generateVariations, hentry] at h
          simp only [valueCount, hentry]
          cases h
          rfl
      | some e =>
          obtain ⟨key, data⟩ := e
          cases data with
          | param definition =>
              simp only [generateVariations, hentry] at h
              simp only [valueCount, hentry]
              cases hargs : definition.args with
              | constlist values =>
                  simp only [hargs] at h ⊢
                  exact length_generateConstlistVariations h
              | range low high =>
                  simp only [hargs] at h ⊢
                  exact length_generateRangeVariations h
              | generated fnName syms =>
                  simp only [hargs] at h ⊢
                  exact length_generateGeneratedVariations ih h
          | _ =>
              simp only [generateVariations, hentry] at h
              simp only [valueCount, hentry]
              cases h
              rfl

end Blts.Params
