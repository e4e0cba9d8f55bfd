import Blts.Params.TestVariations

/-!
# Generated parameters refer backwards

A generated parameter names the parameters of its generator, which may be
generated themselves.  Nothing looks for cycles.  In a table where every such
reference leads to an earlier entry (`GeneratedBelow`) there are none, and the
index of a parameter bounds the depth of the recursion of
`generate_variations`.
-/

namespace Blts.Params

/-- The symbols that a generated parameter refers to. -/
def generatedRefs : SymbolData → List SymRef
  | .param { args := .generated _ syms, .. } => syms
  | _ => []

/-- Every generated parameter refers to earlier entries only. -/
def GeneratedBelow (t : SymbolTable) : Prop :=
  ∀ i e, t.entry? i = some e → ∀ ref ∈ generatedRefs e.data, ref < i

theorem GeneratedBelow.refs {t : SymbolTable} (ht : GeneratedBelow t)
    {sym : SymRef} {key fnName : String} {pd : ParamDef} {syms : List SymRef}
    (hentry : t.entry? sym = some ⟨key, .param pd⟩)
    (hargs : pd.args = .generated fnName syms) : ∀ ref ∈ syms, ref < sym := by
  obtain ⟨type, args⟩ := pd
  cases hargs
  exact ht sym _ hentry

/-! ## Computations that end -/

/-- The computation does not run out of stack. -/
def Ends {α : Type} (x : Except Fault α) : Prop :=
  x ≠ .error .stackOverflow

theorem ends_ok {α : Type} (a : α) : Ends (.ok a : Except Fault α) :=
  fun h => by cases h

theorem ends_outOfBounds {α : Type} : Ends (.error .outOfBounds : Except Fault α) :=
  fun h => by cases h

theorem ends_nullDeref {α : Type} : Ends (.error .nullDeref : Except Fault α) :=
  fun h => by cases h

/-- A sequence ends if both parts do. -/
theorem Ends.bind {α β : Type} {x : Except Fault α} {f : α → Except Fault β}
    (hx : Ends x) (hf : ∀ a, Ends (f a)) : Ends (x >>= f) := by
  cases x with
  | error e => exact fun h => hx (by cases h; rfl)
  | ok a => exact hf a

/-- The loop over the parameters of a generator ends if it does for each. -/
theorem ends_generatorParams {generate : SymRef → Except Fault (List BoxedValue)}
    {syms : List SymRef} (h : ∀ sym ∈ syms, Ends (generate sym)) :
    ∀ params, Ends (generatorParams generate syms params) := by
  induction syms with
  | nil => exact fun params => ends_ok params
  | cons sym syms ih =>
      intro params
      apply Ends.bind (h sym (by simp))
      intro values
      exact ih (fun s hs => h s (by simp [hs])) _

theorem ends_generateNextPermutation (nVars : Nat) :
    ∀ permutation limits, Ends (generateNextPermutation nVars permutation limits) := by
  induction nVars with
  | zero => exact fun permutation limits => ends_ok _
  | succ n ih =>
      intro permutation limits
      cases permutation with
      | nil => exact ends_outOfBounds
      | cons p permutation =>
          cases limits with
          | nil => exact ends_outOfBounds
          | cons l limits =>
              unfold generateNextPermutation
              split
              · exact ends_ok _
              · apply (ih _ _).bind
                intro rest
                exact ends_ok _

theorem ends_countPermutations (nVariables : Nat) :
    ∀ limits acc, Ends (countPermutations nVariables limits acc) := by
  induction nVariables with
  | zero => exact fun limits acc => ends_ok _
  | succ n ih =>
      intro limits acc
      cases limits with
      | nil => exact ends_outOfBounds
      | cons m limits => exact ih _ _

theorem ends_fillPermutations (nVariables : Nat) (limits : List Nat) (count : Nat) :
    ∀ i current b, Ends (fillPermutations nVariables limits count i current b) := by
  induction count with
  | zero => exact fun i current b => ends_ok b
  | succ count ih =>
      intro i current b
      have hcopy : Ends (b.memcpy (i * nVariables % uintMod) current) := by
        unfold UintBlock.memcpy
        split
        · exact ends_ok _
        · exact ends_outOfBounds
      apply hcopy.bind
      intro b'
      apply (ends_generateNextPermutation _ _ _).bind
      intro current'
      exact ih _ _ _

theorem ends_variantValues (perms : VarPermuteTable)
    (values : List (List BoxedValue)) (i count : Nat) :
    ∀ j work, Ends (variantValues perms values i count j work) := by
  induction count with
  | zero => exact fun j work => ends_ok work
  | succ count ih =>
      intro j work
      have hread : ∀ a, Ends (perms.permutations.read a) := by
        intro a
        unfold UintBlock.read
        split
        · exact ends_ok _
        · exact ends_outOfBounds
      apply (hread _).bind
      intro index
      split
      · exact ends_outOfBounds
      · exact ih _ _

theorem ends_variantsFrom (perms : VarPermuteTable)
    (values : List (List BoxedValue)) (count : Nat) :
    ∀ i varlist, Ends (variantsFrom perms values count i varlist) := by
  induction count with
  | zero => exact fun i varlist => ends_ok varlist
  | succ count ih =>
      intro i varlist
      apply (ends_variantValues _ _ _ _ _ _).bind
      intro work
      exact ih _ _

/-- The passes over the lists of values end. -/
theorem ends_permutationVariants (params : List TestParam) :
    Ends (permutationVariants params) := by
  have htable : Ends (generatePermutationTable (testParamListFlatten params)) := by
    apply (ends_countPermutations _ _ _).bind
    intro n
    apply (ends_fillPermutations _ _ _ _ _ _).bind
    intro b
    exact ends_ok _
  apply htable.bind
  intro perms
  apply (ends_variantsFrom _ _ _ _ _).bind
  intro variants
  exact ends_ok _

theorem ends_callGenFunc (genFunc : List BoxedValue → Option BoxedValue)
    (variants : List (List BoxedValue)) :
    ∀ list, Ends (callGenFunc genFunc variants list) := by
  induction variants with
  | nil => exact fun list => ends_ok list
  | cons values variants ih =>
      intro list
      unfold callGenFunc
      cases genFunc values with
      | none => exact ends_nullDeref
      | some bv => exact ih _

theorem ends_generateConstlistVariations (source : Option (List BoxedValue))
    (style : VariationStyle) : Ends (generateConstlistVariations source style) := by
  cases source with
  | none => exact ends_nullDeref
  | some values => cases style <;> exact ends_ok _

theorem ends_generateRangeVariations (low high : Option BoxedValue)
    (style : VariationStyle) : Ends (generateRangeVariations low high style) := by
  cases style <;> cases low <;> first | exact ends_ok _ | exact ends_nullDeref

/-! ## The recursion -/

/-- The loop over the parameters of a generator only depends on the values of
these parameters. -/
theorem generatorParams_congr {f g : SymRef → Except Fault (List BoxedValue)}
    {syms : List SymRef} (h : ∀ sym ∈ syms, f sym = g sym) :
    ∀ params, generatorParams f syms params = generatorParams g syms params := by
  induction syms with
  | nil => exact fun params => rfl
  | cons sym syms ih =>
      intro params
      have hrest := ih fun s hs => h s (by simp [hs])
      simp only [generatorParams, h sym (by simp), hrest]

section

variable {t : SymbolTable} (ht : GeneratedBelow t) (gen : GenFuncs)
  (style : VariationStyle)
include ht

/-- The values of a parameter are generated with a depth of at most its
index. -/
theorem ends_generateVariations (fuel : Nat) :
    ∀ sym < fuel, Ends (generateVariations t gen style fuel sym) := by
  induction fuel with
  | zero => exact fun sym hsym => absurd hsym (Nat.not_lt_zero sym)
  | succ fuel ih =>
      intro sym hsym
      unfold generateVariations
      split
      next key pd hentry =>
        split
        next => exact ends_generateConstlistVariations _ _
        next => exact ends_generateRangeVariations _ _ _
        next fnName syms hargs =>
          have hbelow := ht.refs hentry hargs
          have hends : ∀ ref ∈ syms,
              Ends (generateVariations t gen style fuel ref) := by
            intro ref href
            exact ih ref (Nat.lt_of_lt_of_le (hbelow ref href)
              (Nat.le_of_lt_succ hsym))
          unfold generateGeneratedVariations
          split
          · apply (ends_generatorParams hends []).bind
            intro params
            apply (ends_permutationVariants _).bind
            intro variants
            apply (ends_callGenFunc _ _ _).bind
            intro list
            exact ends_ok _
          · exact ends_ok _
      next => exact ends_ok _

/-- More than that depth changes nothing. -/
theorem generateVariations_fuel (fuel : Nat) :
    ∀ sym < fuel, generateVariations t gen style (fuel + 1) sym =
      generateVariations t gen style fuel sym := by
  induction fuel with
  | zero => exact fun sym hsym => absurd hsym (Nat.not_lt_zero sym)
  | succ fuel ih =>
      intro sym hsym
      rw [generateVariations, generateVariations]
      split
      next key pd hentry =>
        split
        next => rfl
        next => rfl
        next fnName syms hargs =>
          have hbelow := ht.refs hentry hargs
          have hsame : ∀ ref ∈ syms, generateVariations t gen style (fuel + 1) ref =
              generateVariations t gen style fuel ref := by
            intro ref href
            exact ih ref (Nat.lt_of_lt_of_le (hbelow ref href)
              (Nat.le_of_lt_succ hsym))
          simp only [generateGeneratedVariations, generatorParams_congr hsame]
      next => rfl

/-- **Generation ends.**  There is one result for a symbol, reached with any
depth above its index. -/
theorem generateVariations_terminates (sym : SymRef) :
    ∃ result, Ends result ∧ ∀ fuel > sym,
      generateVariations t gen style fuel sym = result := by
  refine ⟨generateVariations t gen style (sym + 1) sym,
    ends_generateVariations ht gen style _ sym (Nat.lt_succ_self sym), ?_⟩
  intro fuel hfuel
  induction fuel, hfuel using Nat.le_induction with
  | base => rfl
  | succ fuel hle ih =>
      rw [generateVariations_fuel ht gen style fuel sym hle]
      exact ih

end

end Blts.Params
