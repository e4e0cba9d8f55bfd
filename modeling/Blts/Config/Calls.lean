import Blts.Config.ContextRuns
import Blts.Config.TableChanges
import Blts.Lib.Run

/-!
# The life of the symbol table

Loading and freeing configurations, declaring tests and registering generators
all work on one table.  `call` is the effect of one such call, and a run is any
sequence of them.  A property of tables that survives insertions holds in every
state a run reaches (`reached`); what is left to say about a call is when it
writes where there is no table.
-/

namespace Blts.Config

open Blts.Lib Blts.Params

/-- The calls that change the table.  A file that cannot be opened is an error
number, and any other file is the tokens that the scanner makes of it. -/
inductive Call where
  | load (file : Except Nat (List Token × Bool))
  | free
  | register (name : Option String) (func : FnRef)
  | declare (name : Option String) (argHandler : Option FnRef)
      (params : List DeclaredParam)
  | declareDynamic (name : Option String) (argHandler : Option FnRef)

/-- `blts_config_load_from_file`. -/
def bltsConfigLoadFromFile (s : ConfigState)
    (file : Except Nat (List Token × Bool)) : Except Fault (Int × ConfigState) :=
  match file with
  | .error errno => .ok (-errno, s)
  | .ok (toks, lexError) => do
      let (ret, t) ←
        bltsConfParserStart (symbolTableInit s.table) toks lexError
      return (ret,
        { table := t
          configLoadComplete := if ret = 0 then true else s.configLoadComplete })

/-- `blts_config_free`. -/
def bltsConfigFree (s : ConfigState) : ConfigState where
  table := { symbolTableFree s.table with top := 0 }
  configLoadComplete := false

/-- One call: its result and the state after it. -/
def call (s : ConfigState) : Call → Except Fault (Int × ConfigState)
  | .load file => bltsConfigLoadFromFile s file
  | .free => .ok (0, bltsConfigFree s)
  | .register name func => bltsConfigRegisterGeneratingFunc s name func
  | .declare name argHandler params =>
      bltsConfigDeclareVariableTest s name argHandler params
  | .declareDynamic name argHandler =>
      bltsConfigDeclareVariableTestDynamic s name argHandler

/-- Sequences of calls, until one stops the program. -/
def calls : System ConfigState Call where
  step s c := (call s c).toOption.map Prod.snd

theorem calls_step_eq_some {s s' : ConfigState} {c : Call} :
    calls.step s c = some s' ↔ ∃ ret, call s c = .ok (ret, s') := by
  show (call s c).toOption.map Prod.snd = some s' ↔ _
  cases call s c with
  | error f => simp [Except.toOption]
  | ok r => simp [Except.toOption, Prod.ext_iff]

/-! ## Properties of the table -/

/-- A property of tables that survives everything the calls do to them. -/
structure KeptByCalls (P : SymbolTable → Prop) : Prop
    extends KeptByDeclarations P where
  start : P (symbolTableInit .unallocated)
  parse : ∀ t toks lexError, P t →
    Keeps (fun r => P r.2) (bltsConfParserStart t toks lexError)
  register : ∀ t name func, P t →
    Keeps P ((symbolTableInsert t ⟨name, .generatorFn func⟩).map Prod.snd)

/-- Nothing has been allocated, or the table has the property. -/
def StateHas (P : SymbolTable → Prop) (s : ConfigState) : Prop :=
  s = .initial ∨ P s.table

/-- A generator can be registered: the name is taken, or there is a table with
room in it. -/
def CanRegister (s : ConfigState) : Call → Prop
  | .register (some name) _ =>
      (symbolTableLookup s.table name).isSome = true ∨
        s.table.cells.isSome = true ∧ s.table.top < symbolTableMax
  | _ => True

instance (s : ConfigState) (c : Call) : Decidable (CanRegister s c) := by
  unfold CanRegister
  split <;> infer_instance

/-- A configuration that is loaded has a table. -/
theorem StateHas.loaded {P : SymbolTable → Prop} {s : ConfigState}
    (hs : StateHas P s) (hload : s.configLoadComplete = true) : P s.table := by
  rcases hs with rfl | h
  · cases hload
  · exact h

namespace KeptByCalls

variable {P : SymbolTable → Prop} (hP : KeptByCalls P) {s : ConfigState}
  (hs : StateHas P s)
include hP hs

theorem allocated : P (symbolTableInit s.table) := by
  rcases hs with rfl | h
  · exact hP.start
  · exact hP.init _ h

/-- A load, whatever the file. -/
theorem load (file : Except Nat (List Token × Bool)) :
    Keeps (fun r => StateHas P r.2) (bltsConfigLoadFromFile s file) := by
  cases file with
  | error errno => exact hs
  | ok input =>
      apply (hP.parse _ input.1 input.2 (hP.allocated hs)).bind
      exact fun r hr => .inr hr

/-- A registration that has a table to write to. -/
theorem registerGeneratingFunc {name : Option String} {func : FnRef}
    (hc : CanRegister s (.register name func)) :
    Keeps (fun r => StateHas P r.2)
      (bltsConfigRegisterGeneratingFunc s name func) := by
  cases name with
  | none => exact fun hf => by cases hf
  | some name =>
      unfold bltsConfigRegisterGeneratingFunc
      dsimp only
      split
      next => exact hs
      next hnew =>
        have htable : P s.table := by
          rcases hs with rfl | h
          · rcases hc with hsome | ⟨halloc, _⟩
            · exact absurd hsome hnew
            · cases halloc
          · exact h
        have hins := hP.register s.table name func htable
        cases hrun : symbolTableInsert s.table ⟨name, .generatorFn func⟩ with
        | error f =>
            rw [hrun] at hins
            exact hins
        | ok r =>
            rw [hrun] at hins
            exact .inr hins

/-- **One call** that can do what it is asked for. -/
theorem call {c : Call} (hc : CanRegister s c) :
    Keeps (fun r => StateHas P r.2) (call s c) := by
  have hright (x : Except Fault (Int × ConfigState))
      (hx : Keeps (fun r => P r.2.table) x) :
      Keeps (fun r => StateHas P r.2) x := by
    cases x with
    | error f => exact hx
    | ok r => exact .inr hx
  cases c with
  | load file => exact hP.load hs file
  | free => exact .inl rfl
  | register name func => exact hP.registerGeneratingFunc hs hc
  | declare name argHandler params =>
      cases name with
      | none => exact hs
      | some name =>
          exact hright _
            (hP.declareVariableTest (hP.allocated hs) hs.loaded argHandler params)
  | declareDynamic name argHandler =>
      cases name with
      | none => exact hs
      | some name =>
          exact hright _
            (hP.declareVariableTestDynamic (hP.allocated hs) hs.loaded argHandler)

end KeptByCalls

/-- A registration without a table, or into a full one. -/
theorem register_of_not_canRegister {s : ConfigState} {c : Call}
    (hc : ¬ CanRegister s c) :
    ∃ name func, c = .register (some name) func ∧
      symbolTableLookup s.table name = none ∧
      (call s c = .error .tableWrite ∨ call s c = .ok (0, s)) := by
  unfold CanRegister at hc
  split at hc
  next name func =>
    push Not at hc
    obtain ⟨hnew, hfull⟩ := hc
    have hnone : symbolTableLookup s.table name = none := by simpa using hnew
    refine ⟨name, func, rfl, hnone, ?_⟩
    simp only [call, bltsConfigRegisterGeneratingFunc, hnone, symbolTableInsert]
    by_cases htop : symbolTableMax ≤ s.table.top
    · rw [if_pos htop]
      exact .inr rfl
    · have hcells : s.table.cells = none := by
        by_contra hsome
        exact htop (hfull (Option.isSome_iff_ne_none.mpr hsome))
      rw [if_neg htop, hcells]
      exact .inl rfl
  next => exact absurd trivial hc

/-- **One call**, whether or not it can do what it is asked for. -/
theorem KeptByCalls.step {P : SymbolTable → Prop} (hP : KeptByCalls P)
    {s s' : ConfigState} {c : Call} {ret : Int} (hs : StateHas P s)
    (hcall : Config.call s c = .ok (ret, s')) : StateHas P s' := by
  by_cases hc : CanRegister s c
  · have hkeeps := hP.call hs hc
    rw [hcall] at hkeeps
    exact hkeeps
  · obtain ⟨name, func, rfl, _, hfault | hok⟩ := register_of_not_canRegister hc
    · rw [hcall] at hfault
      cases hfault
    · rw [hcall] at hok
      cases hok
      exact hs

/-- **Every state that is reached** has the property, whatever the calls. -/
theorem KeptByCalls.reached {P : SymbolTable → Prop} (hP : KeptByCalls P)
    {cs : List Call} {s : ConfigState} (hrun : calls.exec .initial cs = some s) :
    StateHas P s := by
  have hmeets : calls.Meets (fun _ _ => True) .initial cs :=
    calls.meets_of_invariant (fun _ => True) (fun _ _ _ _ _ _ => trivial)
      (fun _ _ _ _ _ => trivial) cs trivial
  refine calls.exec_invariant (StateHas P) ?_ cs (.inl rfl) hmeets hrun
  intro s c s' hs _ hstep
  obtain ⟨ret, hcall⟩ := calls_step_eq_some.mp hstep
  exact hP.step hs hcall

end Blts.Config
