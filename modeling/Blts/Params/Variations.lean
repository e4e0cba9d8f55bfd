import Blts.Params.SymbolTable

/-!
# Test parameter variation support

From the settings of a test to the list of its variants, in the passes of
`blts_params.c`: the settings are collected into a list of parameters and a
list of fixed values, every parameter gets its list of values, the lists are
flattened to arrays, an odometer fills a table of indices to these arrays, and
the table is turned into variants.

Lists are built the way the source builds them, by prepending and reversing.
Counts are `unsigned`, so they are reduced modulo `2 ^ 32`, and so are the byte
sizes computed from them; a block read or written past its size is a fault.
-/

namespace Blts.Params

/-- The values of an `unsigned` variable. -/
def uintMod : Nat := 4294967296

/-- `sizeof(unsigned)`. -/
def sizeofUnsigned : Nat := 4

/-- `CONFIG_VARIATION_*`. -/
inductive VariationStyle where
  | combinations
  | allpairs
  | first
  | last
  deriving DecidableEq

/-- The registered generator functions; `none` is a null result. -/
abbrev GenFuncs := FnRef → List BoxedValue → Option BoxedValue

/-- `struct test_param_list`, one node. -/
structure TestParam where
  param : SymRef
  values : List BoxedValue
  deriving DecidableEq

/-- `struct var_parameter_arrays`. -/
structure VarParameterArrays where
  nParams : Nat
  nValues : List Nat
  values : List (List BoxedValue)

/-- A heap block of `size` numbers of type `unsigned`. -/
structure UintBlock where
  size : Nat
  cell : Nat → Nat

/-- `struct var_permute_table`. -/
structure VarPermuteTable where
  nVariables : Nat
  nPermutations : Nat
  varMaxIndices : List Nat
  permutations : UintBlock

/-! ## The permutation table -/

namespace UintBlock

/-- Read the number at index `i`. -/
def read (b : UintBlock) (i : Nat) : Except Fault Nat :=
  if i < b.size then .ok (b.cell i) else .error .outOfBounds

/-- `memcpy(&b[i], src, ..)`. -/
def memcpy (b : UintBlock) (i : Nat) (src : List Nat) :
    Except Fault UintBlock :=
  if i + src.length ≤ b.size then
    .ok { b with cell := fun a =>
      if i ≤ a ∧ a < i + src.length then src.getD (a - i) 0 else b.cell a }
  else .error .outOfBounds

end UintBlock

/-- `test_param_list_flatten`. -/
def testParamListFlatten (params : List TestParam) : VarParameterArrays :=
  let nParams := params.length % uintMod
  let params := params.take nParams
  let nValues := params.map fun p => p.values.length % uintMod
  { nParams := nParams
    nValues := nValues
    values := params.map fun p => p.values.take (p.values.length % uintMod) }

/-- `generate_next_permutation`, from the variable that `nVars` is counted down
to. -/
def generateNextPermutation (nVars : Nat) (permutation limits : List Nat) :
    Except Fault (List Nat) :=
  match nVars, permutation, limits with
  | 0, permutation, _ => .ok permutation
  | nVars + 1, p :: permutation, l :: limits =>
      if (p + 1) % uintMod < l then .ok ((p + 1) % uintMod :: permutation)
      else do
        let rest ← generateNextPermutation nVars permutation limits
        return 0 :: rest
  | _ + 1, _, _ => .error .outOfBounds

/-- The loop that computes `n_permutations`. -/
def countPermutations (nVariables : Nat) (varMaxIndices : List Nat)
    (nPermutations : Nat) : Except Fault Nat :=
  match nVariables, varMaxIndices with
  | 0, _ => .ok nPermutations
  | nVariables + 1, m :: varMaxIndices =>
      countPermutations nVariables varMaxIndices
        (nPermutations * (if m ≠ 0 then m else 1) % uintMod)
  | _ + 1, [] => .error .outOfBounds

/-- The loop that copies one permutation after the other to the table, with
`count` of them to go. -/
def fillPermutations (nVariables : Nat) (limits : List Nat) (count i : Nat)
    (current : List Nat) (permutations : UintBlock) : Except Fault UintBlock :=
  match count with
  | 0 => .ok permutations
  | count + 1 => do
      let permutations ←
        permutations.memcpy (i * nVariables % uintMod) current
      let current ← generateNextPermutation nVariables current limits
      fillPermutations nVariables limits count (i + 1) current permutations

/-- `generate_permutation_table`. -/
def generatePermutationTable (arrs : VarParameterArrays) :
    Except Fault VarPermuteTable := do
  let nVariables := arrs.nParams
  let permSz := nVariables * sizeofUnsigned % uintMod
  let varMaxIndices := arrs.nValues.take (permSz / sizeofUnsigned)
  let nPermutations ← countPermutations nVariables varMaxIndices 1
  let permTableSz := nPermutations * permSz % uintMod
  let permutations ← fillPermutations nVariables varMaxIndices nPermutations 0
    (List.replicate (permSz / sizeofUnsigned) 0)
    { size := permTableSz / sizeofUnsigned, cell := fun _ => 0 }
  return {
    nVariables := nVariables
    nPermutations := nPermutations
    varMaxIndices := varMaxIndices
    permutations := permutations }

/-! ## From the table to variants -/

/-- The inner loop of `generate_permutation_variants`: the values of variant
`i` from variable `j` on, `count` of them to go, prepended one by one. -/
def variantValues (perms : VarPermuteTable) (values : List (List BoxedValue))
    (i : Nat) (count j : Nat) (work : List BoxedValue) :
    Except Fault (List BoxedValue) :=
  match count with
  | 0 => .ok work
  | count + 1 => do
      let index ←
        perms.permutations.read ((i * perms.nVariables + j) % uintMod)
      match (values[j]?.getD [])[index]? with
      | none => .error .outOfBounds
      | some bv => variantValues perms values i count (j + 1) (bv :: work)

/-- The outer loop of `generate_permutation_variants`, `count` variants to
go. -/
def variantsFrom (perms : VarPermuteTable) (values : List (List BoxedValue))
    (count i : Nat) (varlist : List (List BoxedValue)) :
    Except Fault (List (List BoxedValue)) :=
  match count with
  | 0 => .ok varlist
  | count + 1 => do
      let work ← variantValues perms values i perms.nVariables 0 []
      variantsFrom perms values count (i + 1) (work.reverse :: varlist)

/-- `generate_permutation_variants`: the variants, the last one first. -/
def generatePermutationVariants (perms : VarPermuteTable)
    (arrs : VarParameterArrays) : Except Fault (List (List BoxedValue)) :=
  variantsFrom perms arrs.values perms.nPermutations 0 []

/-- The passes that both callers make over a list of parameters: flatten,
tabulate, build the variants and put the first one in front. -/
def permutationVariants (params : List TestParam) :
    Except Fault (List (List BoxedValue)) := do
  let arrs := testParamListFlatten params
  let perms ← generatePermutationTable arrs
  let variants ← generatePermutationVariants perms arrs
  return variants.reverse

/-! ## The values of one parameter -/

/-- `generate_constlist_variations`. -/
def generateConstlistVariations (source : Option (List BoxedValue))
    (style : VariationStyle) : Except Fault (List BoxedValue) :=
  match source with
  | none => .error .nullDeref
  | some values =>
      match style with
      | .combinations | .allpairs =>
          .ok (values.foldl (fun list v => v :: list) []).reverse
      | .first => .ok values.head?.toList
      | .last => .ok values.getLast?.toList

/-- `generate_range_variations`. -/
def generateRangeVariations (lowBound highBound : Option BoxedValue)
    (style : VariationStyle) : Except Fault (List BoxedValue) :=
  match style with
  | .combinations | .allpairs =>
      match lowBound with
      | none => .error .nullDeref
      | some low => .ok (low :: highBound.toList)
  | .first => .ok lowBound.toList
  | .last => .ok highBound.toList

/-- Call the generator for every variant, prepending the results. -/
def callGenFunc (genFunc : List BoxedValue → Option BoxedValue)
    (variants : List (List BoxedValue)) (list : List BoxedValue) :
    Except Fault (List BoxedValue) :=
  match variants with
  | [] => .ok list
  | values :: variants =>
      match genFunc values with
      | none => .error .nullDeref
      | some bv => callGenFunc genFunc variants (bv :: list)

/-- The loop of `generate_generated_variations` over the parameters of the
generator, the last one first in `params`; `generate` is the recursive call of
`generate_variations`. -/
def generatorParams (generate : SymRef → Except Fault (List BoxedValue)) :
    List SymRef → List TestParam → Except Fault (List TestParam)
  | [], params => .ok params
  | sym :: syms, params => do
      let values ← generate sym
      generatorParams generate syms ({ param := sym, values := values } :: params)

/-- `generate_generated_variations`. -/
def generateGeneratedVariations (table : SymbolTable) (gen : GenFuncs)
    (generate : SymRef → Except Fault (List BoxedValue))
    (generatorFnName : String) (generatorFnParamsSyms : List SymRef) :
    Except Fault (List BoxedValue) :=
  match lookupEntry table generatorFnName with
  | some { data := .generatorFn genFunc, .. } => do
      let params ← generatorParams generate generatorFnParamsSyms []
      let variants ← permutationVariants params.reverse
      let list ← callGenFunc (gen genFunc) variants []
      return list.reverse
  | _ => .ok []

/-- `generate_variations`.  Generated parameters may take generated
parameters; `fuel` bounds the depth of the recursion. -/
def generateVariations (table : SymbolTable) (gen : GenFuncs)
    (style : VariationStyle) (fuel : Nat) (sym : SymRef) :
    Except Fault (List BoxedValue) :=
  match fuel with
  | 0 => .error .stackOverflow
  | fuel + 1 =>
      match table.entry? sym with
      | some { data := .param paramDefinition, .. } =>
          match paramDefinition.args with
          | .constlist values => generateConstlistVariations values style
          | .range low high => generateRangeVariations low high style
          | .generated fnName syms =>
              generateGeneratedVariations table gen
                (generateVariations table gen style fuel) fnName syms
      | _ => .ok []

/-! ## The parameters of a test -/

/-- The result parameters of `collect_test_params`. -/
structure CollectedParams where
  testParams : List TestParam
  fixedParams : List TestParam
  fixedParamValues : List BoxedValue

/-- A parameter list node without values. -/
def paramNode (param : SymRef) : TestParam :=
  { param := param, values := [] }

/-- The loop of `collect_test_params` over the settings. -/
def collectSettings (table : SymbolTable) :
    List TestSetting → CollectedParams → Except Fault CollectedParams
  | [], c => .ok c
  | .paramlist params :: settings, c =>
      collectSettings table settings { c with
        testParams := params.foldl (fun list p => paramNode p :: list)
          c.testParams }
  | .pgroup ref :: settings, c =>
      match table.entry? ref with
      | none => .error .nullDeref
      | some { data := .pgroup params, .. } =>
          collectSettings table settings { c with
            testParams := params.foldl (fun list p => paramNode p :: list)
              c.testParams }
      | some _ => .error .wrongMember
  | .fix param value :: settings, c =>
      match value with
      | none => .error .nullDeref
      | some v =>
          collectSettings table settings { c with
            fixedParams := paramNode param :: c.fixedParams
            fixedParamValues := v :: c.fixedParamValues }

/-- `collect_test_params`: the result code and the three lists. -/
def collectTestParams (table : SymbolTable) (testname : String) :
    Except Fault (Int × CollectedParams) :=
  match lookupEntry table testname with
  | some { data := .test test, .. } =>
      if test.settings = [] then .ok (-enoent, ⟨[], [], []⟩)
      else do
        let c ← collectSettings table test.settings ⟨[], [], []⟩
        return (0, {
          testParams := c.testParams.reverse
          fixedParams := c.fixedParams.reverse
          fixedParamValues := c.fixedParamValues.reverse })
  | _ => .ok (-enoent, ⟨[], [], []⟩)

/-- The loop of `get_fixed_param_value`, for a parameter with the given key. -/
def fixedValueForKey (table : SymbolTable) (key : String) :
    List TestParam → List BoxedValue → Except Fault (Option BoxedValue)
  | p :: fixedParams, v :: fixedValues =>
      match table.entry? p.param with
      | none => .error .nullDeref
      | some e =>
          if key == e.key then .ok (some v)
          else fixedValueForKey table key fixedParams fixedValues
  | _, _ => .ok none

/-- `get_fixed_param_value`. -/
def getFixedParamValue (table : SymbolTable) (param : TestParam)
    (fixedParams : List TestParam) (fixedValues : List BoxedValue) :
    Except Fault (Option BoxedValue) :=
  if fixedParams = [] ∨ fixedValues = [] then .ok none
  else
    match table.entry? param.param with
    | none => .error .nullDeref
    | some e => fixedValueForKey table e.key fixedParams fixedValues

/-- The loop of `generate_test_variations` that fills in the values of every
parameter. -/
def generateParamValues (table : SymbolTable) (gen : GenFuncs)
    (style : VariationStyle) (fuel : Nat) (fixedParams : List TestParam)
    (fixedValues : List BoxedValue) :
    List TestParam → Except Fault (List TestParam)
  | [] => .ok []
  | p :: params => do
      let fixed ← getFixedParamValue table p fixedParams fixedValues
      let values ← match fixed with
        | some v => .ok [v]
        | none => generateVariations table gen style fuel p.param
      let rest ← generateParamValues table gen style fuel fixedParams
        fixedValues params
      return { p with values := values } :: rest

/-- `blts_config_generate_test_variations`: the variants of a test. -/
def bltsConfigGenerateTestVariations (table : SymbolTable) (gen : GenFuncs)
    (fuel : Nat) (testname : String) (style : VariationStyle) :
    Except Fault (List (List BoxedValue)) := do
  let (ret, c) ← collectTestParams table testname
  if ret ≠ 0 then
    return []
  let params ← generateParamValues table gen style fuel c.fixedParams
    c.fixedParamValues c.testParams
  match style with
  | .combinations | .first | .last => permutationVariants params
  | .allpairs => return []

end Blts.Params
