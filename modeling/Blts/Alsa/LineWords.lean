import Blts.Alsa.Words

/-!
# Lines as words

Every line of a section is read word by word.  Here are the functions for the lines
once more, over the words of a line and the value of the last token instead of a
pointer and a token (`Follows`).
-/

namespace Blts.Alsa

/-! ## The parts of a line -/

section

variable {ptr : Option (List Char)} {line : List Char} {w : Word} {words : List Word}

theorem pointsTo_line (hlen : line.length < maxLineLen) : PointsTo (some line) (wordsOf line) :=
  ⟨line, rfl, hlen, rfl⟩

theorem nextKeyword_nil (h : PointsTo (some line) []) (token : CnfToken) :
    nextKeyword line token = .error .failed := by
  unfold nextKeyword
  rw [nextToken_nil h, ok_bind]
  rfl

theorem CnfToken.read_str (hw : w.type = .str) (token : CnfToken) :
    token.read w = { type := .str, value := token.value, str := w.str } := by
  unfold CnfToken.read Word.valueAfter
  rw [hw]

theorem nextKeyword_cons (h : PointsTo (some line) (w :: words)) (token : CnfToken) :
    ∃ ptr', PointsTo (some ptr') words ∧ nextKeyword line token =
      if w.type ≠ .str then .error .failed
      else .ok (some ptr', { type := .str, value := token.value, str := w.str }) := by
  obtain ⟨ptr', hnext, hptr'⟩ := nextToken_cons h token
  refine ⟨ptr', hptr', ?_⟩
  unfold nextKeyword
  rw [hnext, ok_bind]
  simp only [reduceCtorEq, false_or]
  by_cases hw : w.type = .str
  · rw [if_neg (not_not_intro hw), CnfToken.read_str hw]
    rfl
  · rw [if_pos hw]
    exact if_pos hw

theorem nextValue_nil (h : PointsTo ptr []) (token : CnfToken) :
    nextValue ptr token = .error .failed := by
  unfold nextValue
  rw [nextToken_nil h, ok_bind]
  rfl

theorem nextValue_cons (h : PointsTo ptr (w :: words)) (token : CnfToken) :
    nextValue ptr token = .ok (token.read w) := by
  obtain ⟨ptr', hnext, _⟩ := nextToken_cons h token
  unfold nextValue
  rw [hnext, ok_bind]
  rfl

theorem nextString_nil (h : PointsTo ptr []) (token : CnfToken) :
    nextString ptr token = .error .failed := by
  unfold nextString
  rw [nextToken_nil h, ok_bind]
  rfl

theorem nextString_cons (h : PointsTo ptr (w :: words)) (token : CnfToken) :
    nextString ptr token =
      if w.type ≠ .str then .error .failed else .ok (token.read w) := by
  obtain ⟨ptr', hnext, _⟩ := nextToken_cons h token
  unfold nextString
  rw [hnext, ok_bind]
  simp only [reduceCtorEq, false_or]
  rfl

theorem nextInt_nil (h : PointsTo ptr []) (token : CnfToken) :
    nextInt ptr token = .ok (none, { token with type := .int, str := [] }) := by
  unfold nextInt
  rw [nextToken_nil h, ok_bind]
  rfl

theorem nextInt_cons (h : PointsTo ptr (w :: words)) (token : CnfToken) :
    ∃ ptr', PointsTo (some ptr') words ∧ nextInt ptr token =
      if w.type ≠ .int then .error .failed else .ok (some ptr', token.read w) := by
  obtain ⟨ptr', hnext, hptr'⟩ := nextToken_cons h token
  refine ⟨ptr', hptr', ?_⟩
  unfold nextInt
  rw [hnext, ok_bind]
  rfl

theorem nextToken_null (token : CnfToken) :
    nextToken none token = .error (.fault .nullDeref) := rfl

end

/-! ## The lines of a section -/

/-- The words of a line and the value of the last token decide what a line does. -/
def Follows {σ : Type} (parse : List Char → CnfToken → σ → Except CnfStop (CnfToken × σ))
    (step : List Word → Int → σ → Except CnfStop (Int × σ)) : Prop :=
  ∀ line token params, line.length < maxLineLen →
    (parse line token params).map (fun r => (r.1.value, r.2)) =
      step (wordsOf line) token.value params

/-- A word that is to be there, and what is set to its value. -/
def valueWords {σ : Type} (set : Int → σ) (value : Int) : List Word → Except CnfStop (Int × σ)
  | [] => .error .failed
  | w :: _ => .ok (w.valueAfter value, set (w.valueAfter value))

/-- The words of a control and its value.  Without a word for the value, it is that of
the last token. -/
def setWords (config : AlsaControlSettings) (value : Int) :
    List Word → Except CnfStop (Int × AlsaControlSettings)
  | [] => .error (.fault .nullDeref)
  | [n] => do
      let name ← copyString magicNumber (strField n.type n.str)
      let old := n.valueAfter value
      .ok (old, { config with
        values := config.values ++ [⟨name, intField n.type old, old, []⟩] })
  | n :: w :: _ => do
      let name ← copyString magicNumber (strField n.type n.str)
      let old := n.valueAfter value
      let str ← copyString maxLineLen (strField w.type w.str)
      let new := w.valueAfter old
      .ok (new, { config with
        values := config.values ++ [⟨name, intField n.type old, intField w.type new, str⟩] })

/-- The words of a line of a `[control]` section. -/
def controlWords : List Word → Int → AlsaControlSettings →
    Except CnfStop (Int × AlsaControlSettings)
  | [], _, _ => .error .failed
  | k :: ws, value, config =>
      if k.type ≠ .str then .error .failed
      else if beginsWith k.str "card" 4 then
        valueWords (fun card => { config with card := card }) value ws
      else if beginsWith k.str "set" 3 then do
        writeAt magicNumber config.values.length
        setWords config value ws
      else .error .failed

theorem controlLine_follows : Follows controlLine controlWords := by
  intro line token config hlen
  have hline := pointsTo_line hlen
  unfold controlLine
  cases hwords : wordsOf line with
  | nil =>
      rw [hwords] at hline
      rw [nextKeyword_nil hline]
      rfl
  | cons k ws =>
      rw [hwords] at hline
      obtain ⟨ptr, hptr, hnext⟩ := nextKeyword_cons hline token
      rw [hnext]
      simp only [controlWords]
      by_cases htype : k.type ≠ .str
      · rw [if_pos htype, if_pos htype]
        rfl
      rw [if_neg htype, if_neg htype]
      simp only [ok_bind]
      by_cases hcard : beginsWith k.str "card" 4 = true
      · rw [if_pos hcard, if_pos hcard]
        cases ws with
        | nil =>
            rw [nextValue_nil hptr]
            rfl
        | cons w ws =>
            rw [nextValue_cons hptr]
            rfl
      rw [if_neg hcard, if_neg hcard]
      by_cases hset : beginsWith k.str "set" 3 = true
      · rw [if_pos hset, if_pos hset]
        cases ws with
        | nil =>
            rw [nextToken_nil hptr]
            simp only [ok_bind, nextToken_null]
            cases writeAt magicNumber config.values.length with
            | error stop => rfl
            | ok u => rfl
        | cons v ws =>
            obtain ⟨ptr', hnext', hptr'⟩ := nextToken_cons hptr
              { type := .str, value := token.value, str := k.str }
            rw [hnext']
            simp only [ok_bind]
            cases writeAt magicNumber config.values.length with
            | error stop => rfl
            | ok u =>
                simp only [ok_bind, CnfToken.read]
                cases ws with
                | nil =>
                    rw [nextToken_nil hptr']
                    simp only [ok_bind, setWords]
                    cases copyString magicNumber (strField v.type v.str) with
                    | error stop => rfl
                    | ok name => rfl
                | cons w ws =>
                    obtain ⟨ptr₂, hnext₂, _⟩ := nextToken_cons hptr'
                      { type := v.type, value := v.valueAfter token.value, str := v.str }
                    rw [hnext₂]
                    simp only [ok_bind, CnfToken.read, setWords]
                    cases copyString magicNumber (strField v.type v.str) with
                    | error stop => rfl
                    | ok name =>
                        simp only [ok_bind]
                        cases copyString maxLineLen (strField w.type w.str) with
                        | error stop => rfl
                        | ok str => rfl
      · rw [if_neg hset, if_neg hset]
        rfl

/-! ## Streams -/

/-- The settings of a stream with one value. -/
inductive PcmField where
  | card
  | device
  | hwResampling
  | duration
  | freq
  | periodSize
  | volume
  deriving DecidableEq

/-- The settings with any number of values. -/
inductive PcmList where
  | channels
  | rates
  | formats
  | access
  | async
  deriving DecidableEq

inductive PcmKeyword where
  | field (field : PcmField)
  | list (list : PcmList)
  | link
  deriving DecidableEq

def PcmField.set (field : PcmField) (params : AlsaPcmSettings) (value : Int) :
    AlsaPcmSettings :=
  match field with
  | .card => { params with card := value }
  | .device => { params with device := value }
  | .hwResampling => { params with hwResampling := value }
  | .duration => { params with duration := value }
  | .freq => { params with freq := value }
  | .periodSize => { params with periodSize := value }
  | .volume => { params with volume := value }

def PcmList.get (list : PcmList) (params : AlsaPcmSettings) : List Int :=
  match list with
  | .channels => params.channels
  | .rates => params.rates
  | .formats => params.formats
  | .access => params.access
  | .async => params.async

def PcmList.set (list : PcmList) (params : AlsaPcmSettings) (values : List Int) :
    AlsaPcmSettings :=
  match list with
  | .channels => { params with channels := values }
  | .rates => { params with rates := values }
  | .formats => { params with formats := values }
  | .access => { params with access := values }
  | .async => { params with async := values }

/-- The values of the names that a list may hold, if it may. -/
def PcmList.codes : PcmList → Option (List Char → Int)
  | .channels | .rates => none
  | .formats => some strToFormat
  | .access => some strToAccess
  | .async => some strToAsync

/-- The keyword that a word begins with. -/
def pcmKeyword (str : List Char) : Option PcmKeyword :=
  if beginsWith str "card" 4 then some (.field .card)
  else if beginsWith str "device" 6 then some (.field .device)
  else if beginsWith str "hw_resampling" 13 then some (.field .hwResampling)
  else if beginsWith str "channels" 8 then some (.list .channels)
  else if beginsWith str "rates" 5 then some (.list .rates)
  else if beginsWith str "formats" 7 then some (.list .formats)
  else if beginsWith str "access" 6 then some (.list .access)
  else if beginsWith str "async" 5 then some (.list .async)
  else if beginsWith str "duration" 8 then some (.field .duration)
  else if beginsWith str "freq" 4 then some (.field .freq)
  else if beginsWith str "link" 4 then some .link
  else if beginsWith str "period_size" 4 then some (.field .periodSize)
  else if beginsWith str "volume" 6 then some (.field .volume)
  else none

/-- The words of a list, after the values it has. -/
def storeWords (codes : Option (List Char → Int)) : List Word → Int → List Int →
    Except CnfStop (Int × List Int)
  | [], value, values => .ok (value, values)
  | w :: ws, value, values =>
      match w.type with
      | .int => do
          let values ← store magicNumber values (atoi w.str)
          storeWords codes ws (atoi w.str) values
      | .str =>
          match codes with
          | none => .error .failed
          | some strToCode => do
              let values ← store magicNumber values (strToCode w.str)
              if strToCode w.str < 0 then .error .failed else storeWords codes ws value values

section

variable {codes : Option (List Char → Int)} {w : Word} {ws : List Word} {value : Int}
  {values : List Int}

theorem storeWords_int (hw : w.type = .int) : storeWords codes (w :: ws) value values =
    store magicNumber values (atoi w.str) >>= fun values =>
      storeWords codes ws (atoi w.str) values := by
  simp only [storeWords, hw]

theorem storeWords_none (hw : w.type = .str) :
    storeWords none (w :: ws) value values = .error .failed := by
  simp only [storeWords, hw]

theorem storeWords_code {strToCode : List Char → Int} (hw : w.type = .str) :
    storeWords (some strToCode) (w :: ws) value values =
      store magicNumber values (strToCode w.str) >>= fun values =>
        if strToCode w.str < 0 then .error .failed
        else storeWords (some strToCode) ws value values := by
  simp only [storeWords, hw]

end

/-- The words of a link.  If there is one only, it is taken twice. -/
def linkWords (params : AlsaPcmSettings) : List Word → Except CnfStop (Int × AlsaPcmSettings)
  | [] => .error (.fault .nullDeref)
  | [w] =>
      if w.type ≠ .int then .error .failed
      else .ok (atoi w.str, { params with linkCard := atoi w.str, linkDevice := atoi w.str })
  | w :: w' :: _ =>
      if w.type ≠ .int then .error .failed
      else if w'.type ≠ .int then .error .failed
      else .ok (atoi w'.str, { params with linkCard := atoi w.str, linkDevice := atoi w'.str })

/-- The words of a line of a section for a stream. -/
def pcmWords : List Word → Int → AlsaPcmSettings → Except CnfStop (Int × AlsaPcmSettings)
  | [], _, _ => .error .failed
  | k :: ws, value, params =>
      if k.type ≠ .str then .error .failed
      else
        match pcmKeyword k.str with
        | none => .error .failed
        | some (.field field) => valueWords (field.set params) value ws
        | some (.list list) => do
            let r ← storeWords list.codes ws value (list.get params)
            .ok (r.1, list.set params r.2)
        | some .link => linkWords params ws

/-- A line of numbers. -/
theorem parseInts_eq {ws : List Word} : ∀ {fuel : Nat} {ptr : Option (List Char)}
    {token : CnfToken} {values : List Int}, PointsTo ptr ws → ws.length < fuel →
      (parseInts fuel ptr token values).map (fun r => (r.1.value, r.2)) =
        storeWords none ws token.value values := by
  induction ws with
  | nil =>
      intro fuel ptr token values hptr hfuel
      obtain ⟨fuel, rfl⟩ := Nat.exists_eq_add_one.mpr hfuel
      rw [parseInts, nextToken_nil hptr]
      rfl
  | cons w ws ih =>
      intro fuel ptr token values hptr hfuel
      obtain ⟨fuel, rfl⟩ := Nat.exists_eq_add_one.mpr (Nat.zero_lt_of_lt hfuel)
      obtain ⟨ptr', hnext, hptr'⟩ := nextToken_cons hptr token
      rw [parseInts, hnext]
      simp only [ok_bind, reduceCtorEq, if_false]
      cases htype : w.type with
      | str =>
          have hread : (token.read w).type ≠ .int := by
            show w.type ≠ .int
            rw [htype]
            exact fun h => (by cases h)
          rw [if_pos hread, storeWords_none htype]
          rfl
      | int =>
          have hread : ¬ (token.read w).type ≠ .int := not_not_intro htype
          have hvalue : (token.read w).value = atoi w.str := by
            show w.valueAfter token.value = atoi w.str
            unfold Word.valueAfter
            rw [htype]
          rw [if_neg hread, storeWords_int htype, hvalue]
          cases store magicNumber values (atoi w.str) with
          | error stop => rfl
          | ok values' =>
              rw [ok_bind, ok_bind, ih hptr' (Nat.lt_of_succ_lt_succ hfuel), hvalue]

/-- A line of numbers and names. -/
theorem parseCodes_eq {strToCode : List Char → Int} {ws : List Word} :
    ∀ {fuel : Nat} {ptr : Option (List Char)} {token : CnfToken} {values : List Int},
      PointsTo ptr ws → ws.length < fuel →
        (parseCodes strToCode fuel ptr token values).map (fun r => (r.1.value, r.2)) =
          storeWords (some strToCode) ws token.value values := by
  induction ws with
  | nil =>
      intro fuel ptr token values hptr hfuel
      obtain ⟨fuel, rfl⟩ := Nat.exists_eq_add_one.mpr hfuel
      rw [parseCodes, nextToken_nil hptr]
      rfl
  | cons w ws ih =>
      intro fuel ptr token values hptr hfuel
      obtain ⟨fuel, rfl⟩ := Nat.exists_eq_add_one.mpr (Nat.zero_lt_of_lt hfuel)
      have hfuel' := Nat.lt_of_succ_lt_succ hfuel
      obtain ⟨ptr', hnext, hptr'⟩ := nextToken_cons hptr token
      rw [parseCodes, hnext]
      simp only [ok_bind, reduceCtorEq, if_false]
      have hread : (token.read w).type = w.type := rfl
      have hvalue : (token.read w).value = w.valueAfter token.value := rfl
      cases htype : w.type with
      | int =>
          rw [htype] at hread
          rw [Word.valueAfter, htype] at hvalue
          rw [storeWords_int htype, hread, hvalue]
          dsimp only
          cases store magicNumber values (atoi w.str) with
          | error stop => rfl
          | ok values' => rw [ok_bind, ok_bind, ih hptr' hfuel', hvalue]
      | str =>
          rw [htype] at hread
          rw [Word.valueAfter, htype] at hvalue
          rw [storeWords_code htype, hread]
          dsimp only
          show Except.map _ (store magicNumber values (strToCode w.str) >>= _) = _
          cases store magicNumber values (strToCode w.str) with
          | error stop => rfl
          | ok values' =>
              rw [ok_bind, ok_bind]
              show Except.map _ (if strToCode w.str < 0 then _ else _) = _
              by_cases hcode : strToCode w.str < 0
              · rw [if_pos hcode, if_pos hcode]
                rfl
              · rw [if_neg hcode, if_neg hcode, ih hptr' hfuel', hvalue]

section

variable {ptr : List Char} {ws : List Word} {token : CnfToken} {params : AlsaPcmSettings}

theorem nextValue_follows {σ : Type} (set : Int → σ) (hptr : PointsTo (some ptr) ws) :
    (nextValue (some ptr) token >>= fun token =>
        (.ok (token, set token.value) : Except CnfStop _)).map (fun r => (r.1.value, r.2)) =
      valueWords set token.value ws := by
  cases ws with
  | nil =>
      rw [nextValue_nil hptr]
      rfl
  | cons w ws =>
      rw [nextValue_cons hptr]
      rfl

theorem parseInts_follows (list : PcmList) (hlist : list.codes = none) {fuel : Nat}
    (hptr : PointsTo (some ptr) ws) (hfuel : ws.length < fuel) :
    (parseInts fuel (some ptr) token (list.get params) >>= fun r =>
        (.ok (r.1, list.set params r.2) : Except CnfStop _)).map
          (fun r => (r.1.value, r.2)) =
      storeWords list.codes ws token.value (list.get params) >>= fun r =>
        .ok (r.1, list.set params r.2) := by
  rw [hlist, ← parseInts_eq hptr hfuel]
  cases parseInts fuel (some ptr) token (list.get params) with
  | error stop => rfl
  | ok r => rfl

theorem parseCodes_follows (list : PcmList) {strToCode : List Char → Int}
    (hlist : list.codes = some strToCode) {fuel : Nat}
    (hptr : PointsTo (some ptr) ws) (hfuel : ws.length < fuel) :
    (parseCodes strToCode fuel (some ptr) token (list.get params) >>= fun r =>
        (.ok (r.1, list.set params r.2) : Except CnfStop _)).map
          (fun r => (r.1.value, r.2)) =
      storeWords list.codes ws token.value (list.get params) >>= fun r =>
        .ok (r.1, list.set params r.2) := by
  rw [hlist, ← parseCodes_eq hptr hfuel]
  cases parseCodes strToCode fuel (some ptr) token (list.get params) with
  | error stop => rfl
  | ok r => rfl

end

/-- The two numbers of a link. -/
theorem nextInt_follows {ptr : List Char} {ws : List Word} {token : CnfToken}
    {params : AlsaPcmSettings} (hptr : PointsTo (some ptr) ws) :
    (nextInt (some ptr) token >>= fun r => nextInt r.1 r.2 >>= fun r' =>
        (.ok (r'.2, { params with linkCard := r.2.value, linkDevice := r'.2.value }) :
          Except CnfStop _)).map (fun r => (r.1.value, r.2)) = linkWords params ws := by
  cases ws with
  | nil =>
      rw [nextInt_nil hptr]
      rfl
  | cons w ws =>
      obtain ⟨ptr₁, hptr₁, hnext₁⟩ := nextInt_cons hptr token
      rw [hnext₁]
      by_cases hw : w.type = .int
      · have hvalue : w.valueAfter token.value = atoi w.str := by
          unfold Word.valueAfter
          rw [hw]
        rw [if_neg (not_not_intro hw), ok_bind]
        cases ws with
        | nil =>
            rw [nextInt_nil hptr₁, linkWords, if_neg (not_not_intro hw), ← hvalue]
            rfl
        | cons w' ws =>
            obtain ⟨ptr₂, _, hnext₂⟩ := nextInt_cons hptr₁ (token.read w)
            rw [hnext₂, linkWords, if_neg (not_not_intro hw)]
            by_cases hw' : w'.type = .int
            · have hvalue' : w'.valueAfter (w.valueAfter token.value) = atoi w'.str := by
                unfold Word.valueAfter
                rw [hw']
              rw [if_neg (not_not_intro hw'), if_neg (not_not_intro hw'), ← hvalue, ← hvalue']
              rfl
            · rw [if_pos hw', if_pos hw']
              rfl
      · rw [if_pos hw]
        cases ws with
        | nil =>
            rw [linkWords, if_pos hw]
            rfl
        | cons w' ws =>
            rw [linkWords, if_pos hw]
            rfl

theorem pcmLine_follows : Follows pcmLine pcmWords := by
  intro line token params hlen
  have hline := pointsTo_line hlen
  have hfuel := wordsOf_length line
  unfold pcmLine
  cases hwords : wordsOf line with
  | nil =>
      rw [hwords] at hline
      rw [nextKeyword_nil hline]
      rfl
  | cons k ws =>
      rw [hwords] at hline hfuel
      have hws : ws.length < line.length + 1 := Nat.lt_succ_of_lt hfuel
      obtain ⟨ptr, hptr, hnext⟩ := nextKeyword_cons hline token
      rw [hnext]
      simp only [pcmWords]
      by_cases htype : k.type ≠ .str
      · rw [if_pos htype, if_pos htype]
        rfl
      rw [if_neg htype, if_neg htype]
      simp only [ok_bind, pcmKeyword]
      by_cases h : beginsWith k.str "card" 4 = true
      · rw [if_pos h, if_pos h]
        exact nextValue_follows (PcmField.set .card params) hptr
      rw [if_neg h, if_neg h]
      by_cases h : beginsWith k.str "device" 6 = true
      · rw [if_pos h, if_pos h]
        exact nextValue_follows (PcmField.set .device params) hptr
      rw [if_neg h, if_neg h]
      by_cases h : beginsWith k.str "hw_resampling" 13 = true
      · rw [if_pos h, if_pos h]
        exact nextValue_follows (PcmField.set .hwResampling params) hptr
      rw [if_neg h, if_neg h]
      by_cases h : beginsWith k.str "channels" 8 = true
      · rw [if_pos h, if_pos h]
        exact parseInts_follows .channels rfl hptr hws
      rw [if_neg h, if_neg h]
      by_cases h : beginsWith k.str "rates" 5 = true
      · rw [if_pos h, if_pos h]
        exact parseInts_follows .rates rfl hptr hws
      rw [if_neg h, if_neg h]
      by_cases h : beginsWith k.str "formats" 7 = true
      · rw [if_pos h, if_pos h]
        exact parseCodes_follows .formats rfl hptr hws
      rw [if_neg h, if_neg h]
      by_cases h : beginsWith k.str "access" 6 = true
      · rw [if_pos h, if_pos h]
        exact parseCodes_follows .access rfl hptr hws
      rw [if_neg h, if_neg h]
      by_cases h : beginsWith k.str "async" 5 = true
      · rw [if_pos h, if_pos h]
        exact parseCodes_follows .async rfl hptr hws
      rw [if_neg h, if_neg h]
      by_cases h : beginsWith k.str "duration" 8 = true
      · rw [if_pos h, if_pos h]
        exact nextValue_follows (PcmField.set .duration params) hptr
      rw [if_neg h, if_neg h]
      by_cases h : beginsWith k.str "freq" 4 = true
      · rw [if_pos h, if_pos h]
        exact nextValue_follows (PcmField.set .freq params) hptr
      rw [if_neg h, if_neg h]
      by_cases h : beginsWith k.str "link" 4 = true
      · rw [if_pos h, if_pos h]
        exact nextInt_follows hptr
      rw [if_neg h, if_neg h]
      by_cases h : beginsWith k.str "period_size" 4 = true
      · rw [if_pos h, if_pos h]
        exact nextValue_follows (PcmField.set .periodSize params) hptr
      rw [if_neg h, if_neg h]
      by_cases h : beginsWith k.str "volume" 6 = true
      · rw [if_pos h, if_pos h]
        exact nextValue_follows (PcmField.set .volume params) hptr
      rw [if_neg h, if_neg h]
      rfl

/-! ## Tuner, Bluetooth and descriptions -/

/-- A string that is to be there, and what it is copied to. -/
def stringWords {σ : Type} (size : Nat) (set : List Char → σ) (value : Int) :
    List Word → Except CnfStop (Int × σ)
  | [] => .error .failed
  | w :: _ =>
      if w.type ≠ .str then .error .failed
      else do
        let str ← copyString size w.str
        .ok (value, set str)

/-- A number that need not be there. -/
def numberWords {σ : Type} (set : Int → σ) (value : Int) :
    List Word → Except CnfStop (Int × σ)
  | [] => .ok (value, set value)
  | w :: _ => if w.type ≠ .int then .error .failed else .ok (atoi w.str, set (atoi w.str))

/-- The words of a line of a `[tuner]` section. -/
def tunerWords : List Word → Int → V4lTunerSettings → Except CnfStop (Int × V4lTunerSettings)
  | [], _, _ => .error .failed
  | k :: ws, value, tuner =>
      if k.type ≠ .str then .error .failed
      else if k.str = "device".toList then
        stringWords settingLen (fun device => { tuner with device := device }) value ws
      else if k.str = "freq".toList then
        numberWords (fun freq => { tuner with freq := freq }) value ws
      else if k.str = "scan_select".toList then
        numberWords (fun scan => { tuner with scan := scan }) value ws
      else .error .failed

/-- The words of a line of a `[bluetooth]` section. -/
def bluetoothWords : List Word → Int → BluetoothAudioSettings →
    Except CnfStop (Int × BluetoothAudioSettings)
  | [], _, _ => .error .failed
  | k :: ws, value, btaudio =>
      if k.type ≠ .str then .error .failed
      else if k.str = "connect".toList then
        stringWords settingLen (fun mac => { btaudio with remoteMac := mac }) value ws
      else if k.str = "pin".toList then
        stringWords settingLen (fun pin => { btaudio with pin := pin }) value ws
      else .error .failed

/-- The words of a line of a testset that begins no section. -/
def testsetWords : List Word → Int → AlsaTestset → Except CnfStop (Int × AlsaTestset)
  | [], value, testset => .ok (value, testset)
  | k :: ws, value, testset =>
      if k.type = .str ∧ beginsWith k.str "description" 11 then
        stringWords maxLineLen (fun description => { testset with description := description })
          value ws
      else .ok (k.valueAfter value, testset)

section

variable {σ : Type} {ptr : List Char} {ws : List Word} {token : CnfToken}

theorem nextString_follows (size : Nat) (set : List Char → σ) (hptr : PointsTo (some ptr) ws) :
    (nextString (some ptr) token >>= fun token => copyString size token.str >>= fun str =>
        (.ok (token, set str) : Except CnfStop _)).map (fun r => (r.1.value, r.2)) =
      stringWords size set token.value ws := by
  cases ws with
  | nil =>
      rw [nextString_nil hptr]
      rfl
  | cons w ws =>
      rw [nextString_cons hptr, stringWords]
      by_cases hw : w.type = .str
      · rw [if_neg (not_not_intro hw), if_neg (not_not_intro hw), CnfToken.read_str hw]
        show Except.map _ (copyString size w.str >>= _) = _
        cases copyString size w.str with
        | error stop => rfl
        | ok str => rfl
      · rw [if_pos hw, if_pos hw]
        rfl

theorem nextNumber_follows (set : Int → σ) (hptr : PointsTo (some ptr) ws) :
    (nextInt (some ptr) token >>= fun r =>
        (.ok (r.2, set r.2.value) : Except CnfStop _)).map (fun r => (r.1.value, r.2)) =
      numberWords set token.value ws := by
  cases ws with
  | nil =>
      rw [nextInt_nil hptr]
      rfl
  | cons w ws =>
      obtain ⟨ptr', _, hnext⟩ := nextInt_cons hptr token
      rw [hnext, numberWords]
      by_cases hw : w.type = .int
      · have hvalue : w.valueAfter token.value = atoi w.str := by
          unfold Word.valueAfter
          rw [hw]
        rw [if_neg (not_not_intro hw), if_neg (not_not_intro hw), ← hvalue]
        rfl
      · rw [if_pos hw, if_pos hw]
        rfl

end

theorem tunerLine_follows : Follows tunerLine tunerWords := by
  intro line token tuner hlen
  have hline := pointsTo_line hlen
  unfold tunerLine
  cases hwords : wordsOf line with
  | nil =>
      rw [hwords] at hline
      rw [nextKeyword_nil hline]
      rfl
  | cons k ws =>
      rw [hwords] at hline
      obtain ⟨ptr, hptr, hnext⟩ := nextKeyword_cons hline token
      rw [hnext]
      simp only [tunerWords]
      by_cases htype : k.type ≠ .str
      · rw [if_pos htype, if_pos htype]
        rfl
      rw [if_neg htype, if_neg htype]
      simp only [ok_bind]
      by_cases h : k.str = "device".toList
      · rw [if_pos h, if_pos h]
        exact nextString_follows settingLen (fun device => { tuner with device := device }) hptr
      rw [if_neg h, if_neg h]
      by_cases h : k.str = "freq".toList
      · rw [if_pos h, if_pos h]
        exact nextNumber_follows (fun freq => { tuner with freq := freq }) hptr
      rw [if_neg h, if_neg h]
      by_cases h : k.str = "scan_select".toList
      · rw [if_pos h, if_pos h]
        exact nextNumber_follows (fun scan => { tuner with scan := scan }) hptr
      rw [if_neg h, if_neg h]
      rfl

theorem bluetoothLine_follows : Follows bluetoothLine bluetoothWords := by
  intro line token btaudio hlen
  have hline := pointsTo_line hlen
  unfold bluetoothLine
  cases hwords : wordsOf line with
  | nil =>
      rw [hwords] at hline
      rw [nextKeyword_nil hline]
      rfl
  | cons k ws =>
      rw [hwords] at hline
      obtain ⟨ptr, hptr, hnext⟩ := nextKeyword_cons hline token
      rw [hnext]
      simp only [bluetoothWords]
      by_cases htype : k.type ≠ .str
      · rw [if_pos htype, if_pos htype]
        rfl
      rw [if_neg htype, if_neg htype]
      simp only [ok_bind]
      by_cases h : k.str = "connect".toList
      · rw [if_pos h, if_pos h]
        exact nextString_follows settingLen (fun mac => { btaudio with remoteMac := mac }) hptr
      rw [if_neg h, if_neg h]
      by_cases h : k.str = "pin".toList
      · rw [if_pos h, if_pos h]
        exact nextString_follows settingLen (fun pin => { btaudio with pin := pin }) hptr
      rw [if_neg h, if_neg h]
      rfl

theorem testsetLine_follows : Follows testsetLine testsetWords := by
  intro line token testset hlen
  have hline := pointsTo_line hlen
  unfold testsetLine
  cases hwords : wordsOf line with
  | nil =>
      rw [hwords] at hline
      rw [nextToken_nil hline]
      rfl
  | cons k ws =>
      rw [hwords] at hline
      obtain ⟨ptr, hnext, hptr⟩ := nextToken_cons hline token
      rw [hnext]
      simp only [ok_bind, testsetWords]
      by_cases h : k.type = .str ∧ beginsWith k.str "description" 11 = true
      · rw [if_pos h, if_pos ⟨Option.some_ne_none ptr, h⟩, CnfToken.read_str h.1]
        exact nextString_follows maxLineLen
          (fun description => { testset with description := description }) hptr
      · rw [if_neg h, if_neg (fun hd => h hd.2)]
        rfl

end Blts.Alsa
