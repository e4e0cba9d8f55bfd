import Mathlib.Data.List.Perm.Basic
import Mathlib.Logic.Function.Basic
import Blts.Fault
import Blts.Lib.Run
import Blts.Alsa.WrittenWords
import Blts.Ofono.MultipartyStages

/-!
# The calls of a case with several parties

The paths of the calls are kept in the order in which they come, and their proxies at the number
in their paths.  Both arrays have six slots.  A call that is removed is taken for the last one,
and what is freed is the slot after it.
-/

namespace Blts.Ofono

open Blts.Lib
open Blts.Alsa (atoi digits digits_ne_nil digits_isDigit atoi_digits asInt_eq_iff)

/-- The path of an object, such as `/modem/voicecall1`. -/
abbrev CallPath := List Char

local instance : LawfulBEq CallPath := inferInstance

/-- The number that `sscanf` reads with `voicecall%d`, of text without blanks and signs. -/
def scanVoicecall (name : List Char) : Option Int :=
  if name.take 9 = "voicecall".toList then
    match name.drop 9 with
    | [] => none
    | c :: cs => if c.isDigit then some (atoi (c :: cs)) else none
  else none

/-- `parse_call_index_from_path`: the name stands after the first token of the path. -/
def parseCallIndexFromPath (path : CallPath) : Int :=
  let token := path.dropWhile (· = '/')
  if token = [] then -1
  else (scanVoicecall ((token.dropWhile (· ≠ '/')).drop 1)).getD (-1)

/-- The paths of a modem's calls. -/
theorem parseCallIndexFromPath_voicecall {modem : List Char} (hmodem : modem ≠ [])
    (hslash : '/' ∉ modem) {n : Nat} (hn : n < 2147483648) :
    parseCallIndexFromPath ('/' :: modem ++ ('/' :: "voicecall".toList ++ digits n)) = n := by
  obtain ⟨m, ms, rfl⟩ := List.exists_cons_of_ne_nil hmodem
  have hnone : ∀ c ∈ m :: ms, decide (c ≠ '/') = true := fun c hc =>
    decide_eq_true fun heq => hslash (heq ▸ hc)
  have htoken : ('/' :: (m :: ms) ++ ('/' :: "voicecall".toList ++ digits n)).dropWhile (· = '/') =
      (m :: ms) ++ ('/' :: "voicecall".toList ++ digits n) := by
    have hm : ¬ (decide (m = '/') = true) := fun heq =>
      hslash (of_decide_eq_true heq ▸ List.mem_cons_self)
    exact List.dropWhile_cons_of_neg (p := fun c => decide (c = '/')) hm
  have hname : (((m :: ms) ++ ('/' :: "voicecall".toList ++ digits n)).dropWhile (· ≠ '/')).drop 1 =
      "voicecall".toList ++ digits n := by
    rw [List.dropWhile_append_of_pos hnone, List.cons_append,
      List.dropWhile_cons_of_neg (by decide)]
    rfl
  have hscan : scanVoicecall ("voicecall".toList ++ digits n) = some (n : Int) := by
    obtain ⟨c, cs, hdigits⟩ := List.exists_cons_of_ne_nil (digits_ne_nil n)
    have hc : c.isDigit = true := digits_isDigit (hdigits ▸ List.mem_cons_self)
    have hvalue : atoi (c :: cs) = n := by
      rw [← hdigits, atoi_digits, asInt_eq_iff]
      omega
    unfold scanVoicecall
    rw [List.take_left' (by decide), if_pos rfl, List.drop_left' (by decide), hdigits]
    dsimp only
    rw [if_pos hc, hvalue]
  unfold parseCallIndexFromPath
  dsimp only
  rw [htoken, if_neg (List.append_ne_nil_of_left_ne_nil hmodem _), hname, hscan, Option.getD_some]

/-- A call of the phone simulator. -/
theorem parseCallIndexFromPath_one :
    parseCallIndexFromPath "/phonesim/voicecall1".toList = (1 : Nat) :=
  @parseCallIndexFromPath_voicecall "phonesim".toList (by decide) (by decide) 1 (by decide)

/-- The arrays of `struct multipart_call_case_state`.  A proxy is known by the path it has been
made for. -/
structure CallTable where
  voiceCalls : Nat → Option CallPath
  voiceCallPath : Nat → Option CallPath
  numberVoiceCalls : Nat

namespace CallTable

def empty : CallTable := ⟨fun _ => none, fun _ => none, 0⟩

/-- A slot with a path is freed, with the proxy that has the same index. -/
def freeSlot (t : CallTable) (n : Nat) : Except Fault CallTable :=
  if maxVoicecalls ≤ n then .error .outOfBounds
  else if t.voiceCallPath n = none then .ok t
  else if t.voiceCalls n = none then .error .nullDeref
  else .ok { t with
    voiceCallPath := Function.update t.voiceCallPath n none
    voiceCalls := Function.update t.voiceCalls n none }

/-- A path in the slot after the last call. -/
def push (t : CallTable) (path : CallPath) : CallTable :=
  { t with
    voiceCallPath := Function.update t.voiceCallPath t.numberVoiceCalls (some path)
    numberVoiceCalls := t.numberVoiceCalls + 1 }

/-- `multiparty_stage_add_call`. -/
def addCall (t : CallTable) (path : CallPath) : Except Fault CallTable :=
  if maxVoicecalls < t.numberVoiceCalls + 1 then .ok t
  else do
    let t ← t.freeSlot t.numberVoiceCalls
    .ok (t.push path)

/-- `multiparty_stage_remove_call`. -/
def removeCall (t : CallTable) : Except Fault CallTable :=
  if t.numberVoiceCalls = 0 then .ok t
  else do
    let t ← t.freeSlot t.numberVoiceCalls
    .ok { t with numberVoiceCalls := t.numberVoiceCalls - 1 }

/-- `handle_incoming_call`, with whether a proxy can be made. -/
def handleIncomingCall (t : CallTable) (path : CallPath) (proxy : Bool) :
    Except Fault CallTable :=
  let index := parseCallIndexFromPath path
  if index < 0 then .ok t
  else if maxVoicecalls ≤ index.toNat then .error .outOfBounds
  else if t.voiceCalls index.toNat = none ∧ proxy then
    .ok { t with voiceCalls := Function.update t.voiceCalls index.toNat (some path) }
  else .ok t

/-- `on_voice_call_manager_call_added`. -/
def callAdded (t : CallTable) (path : CallPath) (proxy : Bool) : Except Fault CallTable := do
  let t ← t.addCall path
  t.handleIncomingCall path proxy

/-- The proxy at an index, once a slot has been freed. -/
def occupant (t : CallTable) (slot index : Nat) : Option CallPath :=
  if t.voiceCallPath slot ≠ none ∧ index = slot then none else t.voiceCalls index

end CallTable

/-- The calls of the modem, and what the case keeps of them. -/
structure ModemCalls where
  table : Except Fault CallTable
  live : List CallPath

inductive CallSignal where
  | added (path : CallPath) (proxy : Bool)
  | removed (path : CallPath)
  deriving DecidableEq

/-- At most six calls are alive at a time. -/
def modemCallsStep (s : ModemCalls) (e : CallSignal) : Option ModemCalls :=
  match s.table with
  | .error _ => none
  | .ok t =>
      match e with
      | .added path proxy =>
          if path ∈ s.live ∨ maxVoicecalls ≤ s.live.length then none
          else some ⟨t.callAdded path proxy, s.live ++ [path]⟩
      | .removed path =>
          if path ∈ s.live then some ⟨t.removeCall, s.live.erase path⟩ else none

def modemCalls : System ModemCalls CallSignal := ⟨modemCallsStep⟩

def ModemCalls.start : ModemCalls := ⟨.ok .empty, []⟩

/-- What the arrays are for. -/
def Accurate (s : ModemCalls) : Prop :=
  ∃ t, s.table = .ok t ∧ t.numberVoiceCalls = s.live.length ∧
    ((List.range t.numberVoiceCalls).map t.voiceCallPath).Perm (s.live.map some) ∧
    ∀ path ∈ s.live, 0 ≤ parseCallIndexFromPath path ∧
      t.voiceCalls (parseCallIndexFromPath path).toNat = some path

/-- The slot after the last call can be freed: it is without a path, or has a proxy, of none of the
calls that go on. -/
def SlotClear (t : CallTable) (live : List CallPath) : Prop :=
  t.voiceCallPath t.numberVoiceCalls ≠ none →
    t.voiceCalls t.numberVoiceCalls ≠ none ∧
      ∀ path ∈ live, (parseCallIndexFromPath path).toNat ≠ t.numberVoiceCalls

/-- A signal after which the arrays are right again. -/
def InOrder (s : ModemCalls) (e : CallSignal) : Prop :=
  ∀ t ∈ s.table.toOption,
    match e with
    | .added path proxy =>
        SlotClear t s.live ∧ 0 ≤ parseCallIndexFromPath path ∧
          (parseCallIndexFromPath path).toNat < maxVoicecalls ∧
          (t.occupant t.numberVoiceCalls (parseCallIndexFromPath path).toNat = some path ∨
            t.occupant t.numberVoiceCalls (parseCallIndexFromPath path).toNat = none ∧
              proxy = true)
    | .removed path =>
        SlotClear t (s.live.erase path) ∧ s.live.length < maxVoicecalls ∧
          s.live.getLast? = some path

/-! ## One signal -/

/-- The slots hold the calls in the order of their arrival. -/
structure CallsKept (live : List CallPath) (t : CallTable) : Prop where
  number : t.numberVoiceCalls = live.length
  bound : live.length ≤ maxVoicecalls
  nodup : live.Nodup
  paths : ∀ i < live.length, t.voiceCallPath i = live[i]?
  proxies : ∀ path ∈ live, 0 ≤ parseCallIndexFromPath path ∧
    t.voiceCalls (parseCallIndexFromPath path).toNat = some path

theorem callsKept_empty : CallsKept [] .empty where
  number := rfl
  bound := Nat.zero_le _
  nodup := List.nodup_nil
  paths := fun i h => absurd h (Nat.not_lt_zero i)
  proxies := fun _ h => absurd h List.not_mem_nil

theorem CallsKept.accurate {live : List CallPath} {t : CallTable} (h : CallsKept live t) :
    Accurate ⟨.ok t, live⟩ := by
  refine ⟨t, rfl, h.number, ?_, h.proxies⟩
  have hpaths : (List.range t.numberVoiceCalls).map t.voiceCallPath = live.map some := by
    apply List.ext_getElem
    · rw [List.length_map, List.length_range, List.length_map, h.number]
    · intro i hi _
      rw [List.length_map, List.length_range, h.number] at hi
      rw [List.getElem_map, List.getElem_range, List.getElem_map, h.paths i hi,
        List.getElem?_eq_getElem hi]
  rw [hpaths]

namespace CallTable

variable {t : CallTable} {n : Nat}

/-- What is left when a slot has been freed. -/
structure Freed (t : CallTable) (n : Nat) (t' : CallTable) : Prop where
  number : t'.numberVoiceCalls = t.numberVoiceCalls
  paths : ∀ i, i ≠ n → t'.voiceCallPath i = t.voiceCallPath i
  proxies : ∀ i, t'.voiceCalls i = t.occupant n i

theorem freeSlot_ok (hn : n < maxVoicecalls)
    (hclear : t.voiceCallPath n ≠ none → t.voiceCalls n ≠ none) :
    ∃ t', t.freeSlot n = .ok t' ∧ Freed t n t' := by
  unfold freeSlot
  rw [if_neg (Nat.not_le.mpr hn)]
  by_cases hpath : t.voiceCallPath n = none
  · rw [if_pos hpath]
    refine ⟨t, rfl, rfl, fun _ _ => rfl, fun i => ?_⟩
    unfold occupant
    rw [if_neg fun h => h.1 hpath]
  · rw [if_neg hpath, if_neg (hclear hpath)]
    refine ⟨_, rfl, rfl, fun i hi => Function.update_of_ne hi _ _, fun i => ?_⟩
    unfold occupant
    show Function.update t.voiceCalls n none i = _
    by_cases hi : i = n
    · rw [if_pos ⟨hpath, hi⟩, hi, Function.update_self]
    · rw [if_neg fun h => hi h.2, Function.update_of_ne hi]

/-- The proxy of an added call, at its index. -/
theorem handleIncomingCall_ok {path : CallPath} {proxy : Bool}
    (hindex : 0 ≤ parseCallIndexFromPath path)
    (hbound : (parseCallIndexFromPath path).toNat < maxVoicecalls)
    (hslot : t.voiceCalls (parseCallIndexFromPath path).toNat = some path ∨
      t.voiceCalls (parseCallIndexFromPath path).toNat = none ∧ proxy = true) :
    ∃ proxies, t.handleIncomingCall path proxy = .ok { t with voiceCalls := proxies } ∧
      proxies (parseCallIndexFromPath path).toNat = some path ∧
      ∀ i, i ≠ (parseCallIndexFromPath path).toNat → proxies i = t.voiceCalls i := by
  unfold handleIncomingCall
  dsimp only
  rw [if_neg (Int.not_lt.mpr hindex), if_neg (Nat.not_le.mpr hbound)]
  rcases hslot with hslot | hslot
  · refine ⟨t.voiceCalls, if_neg fun h => ?_, hslot, fun _ _ => rfl⟩
    rw [hslot] at h
    cases h.1
  · exact ⟨_, if_pos hslot, Function.update_self .., fun i hi => Function.update_of_ne hi _ _⟩

/-- Proxies of calls that go on stay. -/
theorem occupant_of_clear {live : List CallPath} (hclear : SlotClear t live) {path : CallPath}
    (hpath : path ∈ live) :
    t.occupant t.numberVoiceCalls (parseCallIndexFromPath path).toNat =
      t.voiceCalls (parseCallIndexFromPath path).toNat := by
  unfold occupant
  exact if_neg fun h => (hclear h.1).2 path hpath h.2

end CallTable

open CallTable

/-- **A call is added.** -/
theorem CallsKept.added {live : List CallPath} {t : CallTable} (h : CallsKept live t)
    {path : CallPath} {proxy : Bool} (hnew : path ∉ live) (hroom : live.length < maxVoicecalls)
    (horder : InOrder ⟨.ok t, live⟩ (.added path proxy)) :
    ∃ t', t.callAdded path proxy = .ok t' ∧ CallsKept (live ++ [path]) t' := by
  obtain ⟨hclear, hindex, hbound, hslot⟩ := horder t rfl
  have hnumber : t.numberVoiceCalls < maxVoicecalls := h.number ▸ hroom
  obtain ⟨t₁, hfree, hfreed⟩ := freeSlot_ok hnumber fun hpath => (hclear hpath).1
  rw [← hfreed.proxies] at hslot
  have hadd : t.addCall path = .ok (t₁.push path) := by
    unfold CallTable.addCall
    rw [if_neg (Nat.not_lt.mpr hnumber), hfree]
    rfl
  obtain ⟨proxies, hhandle, hself, hothers⟩ :=
    handleIncomingCall_ok (t := t₁.push path) hindex hbound hslot
  have hrun : t.callAdded path proxy = .ok { t₁.push path with voiceCalls := proxies } := by
    unfold CallTable.callAdded
    rw [hadd]
    exact hhandle
  have hn : t₁.numberVoiceCalls = live.length := hfreed.number.trans h.number
  refine ⟨_, hrun, ?_, ?_, ?_, ?_, ?_⟩
  · show t₁.numberVoiceCalls + 1 = (live ++ [path]).length
    rw [hn, List.length_append, List.length_singleton]
  · rw [List.length_append, List.length_singleton]
    exact hroom
  · exact List.nodup_append.mpr ⟨h.nodup, List.pairwise_singleton _ path, fun a ha b hb => by
      rintro rfl
      exact hnew (List.mem_singleton.mp hb ▸ ha)⟩
  · intro i hi
    rw [List.length_append, List.length_singleton] at hi
    show Function.update t₁.voiceCallPath t₁.numberVoiceCalls (some path) i = _
    rw [hn]
    by_cases hlast : i = live.length
    · rw [hlast, Function.update_self, List.getElem?_concat_length]
    · have hlt : i < live.length := by omega
      rw [Function.update_of_ne hlast, List.getElem?_append_left hlt, ← h.paths i hlt]
      exact hfreed.paths i (h.number ▸ hlast)
  · intro path' hpath'
    rcases List.mem_append.mp hpath' with hold | hlast
    · obtain ⟨hpos, hproxy⟩ := h.proxies path' hold
      rw [← occupant_of_clear hclear hold, ← hfreed.proxies] at hproxy
      refine ⟨hpos, ?_⟩
      have hne : (parseCallIndexFromPath path').toNat ≠ (parseCallIndexFromPath path).toNat := by
        -- the proxy there would be the one of the new call
        intro heq
        rw [heq] at hproxy
        rcases hslot with hsome | ⟨hnone, _⟩
        · exact hnew (Option.some.inj (hproxy.symm.trans hsome) ▸ hold)
        · cases hproxy.symm.trans hnone
      exact (hothers _ hne).trans hproxy
    · rw [List.mem_singleton.mp hlast]
      exact ⟨hindex, hself⟩

/-- **The last call is removed.** -/
theorem CallsKept.removed {live : List CallPath} {t : CallTable} (h : CallsKept live t)
    {path : CallPath} (horder : InOrder ⟨.ok t, live⟩ (.removed path)) :
    ∃ t', t.removeCall = .ok t' ∧ CallsKept (live.erase path) t' := by
  obtain ⟨hclear, hroom, hlast⟩ := horder t rfl
  obtain ⟨calls, rfl⟩ := List.getLast?_eq_some_iff.mp hlast
  have hfresh : path ∉ calls := fun hmem =>
    (List.nodup_append.mp h.nodup).2.2 path hmem path List.mem_cons_self rfl
  have herase : (calls ++ [path]).erase path = calls := by
    rw [List.erase_append_right _ hfresh, List.erase_cons_head, List.append_nil]
  have hlen : (calls ++ [path]).length = calls.length + 1 :=
    List.length_append
  have hnumber : t.numberVoiceCalls = calls.length + 1 := h.number.trans hlen
  rw [herase] at hclear
  rw [herase]
  have hbound : t.numberVoiceCalls < maxVoicecalls := h.number ▸ hroom
  obtain ⟨t₁, hfree, hfreed⟩ := freeSlot_ok hbound fun hpath => (hclear hpath).1
  have hremove : t.removeCall = .ok { t₁ with numberVoiceCalls := t₁.numberVoiceCalls - 1 } := by
    unfold CallTable.removeCall
    rw [if_neg (by omega), hfree]
    rfl
  refine ⟨_, hremove, ?_, ?_, (List.nodup_append.mp h.nodup).1, ?_, ?_⟩
  · show t₁.numberVoiceCalls - 1 = calls.length
    rw [hfreed.number, hnumber]
    rfl
  · have := h.bound
    omega
  · intro i hi
    have hpath := h.paths i (by omega)
    rw [List.getElem?_append_left hi] at hpath
    exact (hfreed.paths i (by omega)).trans hpath
  · intro path' hpath'
    obtain ⟨hpos, hproxy⟩ := h.proxies path' (List.mem_append_left _ hpath')
    rw [← occupant_of_clear hclear hpath', ← hfreed.proxies] at hproxy
    exact ⟨hpos, hproxy⟩

/-- The number of calls is the one of the stages. -/
theorem CallTable.freeSlot_number {t t' : CallTable} {n : Nat} (h : t.freeSlot n = .ok t') :
    t'.numberVoiceCalls = t.numberVoiceCalls := by
  unfold CallTable.freeSlot at h
  split at h
  · cases h
  · split at h
    · cases h
      rfl
    · split at h
      · cases h
      · cases h
        rfl

theorem CallTable.addCall_number {t t' : CallTable} {path : CallPath}
    (h : t.addCall path = .ok t') : t'.numberVoiceCalls = addedCalls t.numberVoiceCalls := by
  unfold CallTable.addCall at h
  unfold addedCalls
  split at h
  next hfull =>
    cases h
    rw [if_pos hfull]
  next hroom =>
    obtain ⟨t₁, hfree, hpush⟩ := exists_of_bind_eq_ok h
    cases hpush
    rw [if_neg hroom, ← CallTable.freeSlot_number hfree]
    rfl

theorem CallTable.removeCall_number {t t' : CallTable} (h : t.removeCall = .ok t') :
    t'.numberVoiceCalls = removedCalls t.numberVoiceCalls := by
  unfold CallTable.removeCall at h
  unfold removedCalls
  split at h
  next hnone =>
    cases h
    rw [hnone]
  · obtain ⟨t₁, hfree, hless⟩ := exists_of_bind_eq_ok h
    cases hless
    rw [← CallTable.freeSlot_number hfree]

/-! ## Whole runs -/

def CallsInv (s : ModemCalls) : Prop := ∃ t, s.table = .ok t ∧ CallsKept s.live t

theorem callsInv_step {s s' : ModemCalls} {e : CallSignal} (h : CallsInv s) (horder : InOrder s e)
    (hstep : modemCallsStep s e = some s') : CallsInv s' := by
  obtain ⟨table, live⟩ := s
  obtain ⟨t, rfl, hkept⟩ := h
  unfold modemCallsStep at hstep
  dsimp only at hstep
  cases e with
  | added path proxy =>
      dsimp only at hstep
      split at hstep
      · cases hstep
      next hnew =>
        cases hstep
        exact hkept.added (fun hmem => hnew (.inl hmem))
          (Nat.not_le.mp fun hfull => hnew (.inr hfull)) horder
  | removed path =>
      dsimp only at hstep
      split at hstep
      · cases hstep
        exact hkept.removed horder
      · cases hstep

/-- **The calls of a case**: as long as a call that is added has a number below six, and a slot
where no other proxy is, the call that is removed is the last one, and the slot that is freed is
clear, the arrays are right, and nothing is released twice or through a null pointer. -/
theorem accurate_of_inOrder {es : List CallSignal} (horder : modemCalls.Meets InOrder .start es)
    {s : ModemCalls} (hexec : modemCalls.exec .start es = some s) : Accurate s := by
  have hinv : CallsInv s :=
    modemCalls.exec_invariant CallsInv (fun _ _ _ h horder hstep => callsInv_step h horder hstep) es
      ⟨.empty, rfl, callsKept_empty⟩ horder hexec
  obtain ⟨table, live⟩ := s
  obtain ⟨t, rfl, hkept⟩ := hinv
  exact hkept.accurate

instance (t : CallTable) (live : List CallPath) : Decidable (SlotClear t live) := by
  unfold SlotClear
  infer_instance

instance : ∀ (s : ModemCalls) (e : CallSignal), Decidable (InOrder s e)
  | _, .added _ _ => by
      unfold InOrder
      infer_instance
  | _, .removed _ => by
      unfold InOrder
      infer_instance

/-- A call with the number of its place is removed and comes back. -/
theorem accurate_comesBack :
    ∃ s, modemCalls.exec .start [.added "/m/voicecall2".toList true,
      .added "/m/voicecall1".toList true, .removed "/m/voicecall1".toList,
      .added "/m/voicecall1".toList true] = some s ∧ Accurate s := by
  obtain ⟨s, hs⟩ := Option.isSome_iff_exists.mp (show (modemCalls.exec .start
    [.added "/m/voicecall2".toList true, .added "/m/voicecall1".toList true,
      .removed "/m/voicecall1".toList, .added "/m/voicecall1".toList true]).isSome = true by
    decide +kernel)
  exact ⟨s, hs, accurate_of_inOrder (by decide +kernel) hs⟩

/-- The only call is removed and comes back: its proxy is released at the index of its place, where
there is none. -/
theorem onlyCall_nullDeref :
    (modemCalls.exec .start [.added "/m/voicecall1".toList true,
      .removed "/m/voicecall1".toList, .added "/m/voicecall1".toList true]).map
      (fun s => match s.table with
        | .ok _ => none
        | .error fault => some fault) = some (some .nullDeref) := by
  decide +kernel

end Blts.Ofono
