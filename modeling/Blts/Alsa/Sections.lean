import Blts.Alsa.Text

/-!
# The sections of a configuration file

`alsa_read_config` finds the end of a section first and then reads what stands
between.  A pair of pointers, from `start` to `end`, is the text between them here;
reading a line may look at the text after it too.

Nothing is known of what an uninitialised `token.value` holds: it is `junk`.  A
configuration that could not be read is not kept, and no allocation fails.
-/

namespace Blts.Alsa

/-- `strncmp(str, keyword, n) == 0`. -/
def beginsWith (str : List Char) (keyword : String) (n : Nat) : Bool :=
  str.take n == keyword.toList.take n

/-- `strcpy` to a string of `size` characters. -/
def copyString (size : Nat) (str : List Char) : Except CnfStop (List Char) :=
  if str.length < size then .ok str else .error (.fault .outOfBounds)

/-- The element `index` of an array of `size` is written. -/
def writeAt (size index : Nat) : Except CnfStop Unit :=
  if index < size then .ok () else .error (.fault .outOfBounds)

/-- A value is stored after those of an array of `size`. -/
def store {α : Type} (size : Nat) (values : List α) (a : α) : Except CnfStop (List α) := do
  writeAt size values.length
  .ok (values ++ [a])

/-- The first token of a line, which is to be a keyword. -/
def nextKeyword (line : List Char) (token : CnfToken) :
    Except CnfStop (Option (List Char) × CnfToken) := do
  let r ← nextToken (some line) token
  if r.1 = none ∨ r.2.type ≠ .str then .error .failed else .ok r

/-- A token that is to be there, of any type. -/
def nextValue (ptr : Option (List Char)) (token : CnfToken) : Except CnfStop CnfToken := do
  let r ← nextToken ptr token
  if r.1 = none then .error .failed else .ok r.2

/-- A token that is to be there, and a string. -/
def nextString (ptr : Option (List Char)) (token : CnfToken) : Except CnfStop CnfToken := do
  let r ← nextToken ptr token
  if r.1 = none ∨ r.2.type ≠ .str then .error .failed else .ok r.2

/-- A token that is to be no string; it need not be there. -/
def nextInt (ptr : Option (List Char)) (token : CnfToken) :
    Except CnfStop (Option (List Char) × CnfToken) := do
  let r ← nextToken ptr token
  if r.2.type ≠ .int then .error .failed else .ok r

/-- The `while` loop of the sections without sections in them. -/
def parseLines {σ : Type} (parse : List Char → CnfToken → σ → Except CnfStop (CnfToken × σ)) :
    Nat → List Char → List Char → Option (List Char) → CnfToken → σ → Except CnfStop σ
  | 0, _, _, _, _, params => .ok params
  | fuel + 1, body, after, line, token, params =>
      if body = [] then .ok params
      else do
        let (len, text) ← readLine (body ++ after) line
        let s ← parse text token params
        parseLines parse fuel (body.drop (len + 1)) after (some text) s.1 s.2

/-- A section, from the first line to the last. -/
def parseSection {σ : Type} (parse : List Char → CnfToken → σ → Except CnfStop (CnfToken × σ))
    (junk : Int) (body after : List Char) (params : σ) : Except CnfStop σ :=
  parseLines parse body.length body after none { type := .int, value := junk, str := [] } params

/-! ## Controls -/

/-- What goes into the string of a setting, by the type of the token. -/
def strField (type : CnfTokenType) (str : List Char) : List Char :=
  match type with
  | .str => str
  | .int => []

/-- What goes into its number. -/
def intField (type : CnfTokenType) (value : Int) : Int :=
  match type with
  | .str => 0
  | .int => value

/-- A line of a `[control]` section. -/
def controlLine (line : List Char) (token : CnfToken) (config : AlsaControlSettings) :
    Except CnfStop (CnfToken × AlsaControlSettings) := do
  let (ptr, token) ← nextKeyword line token
  if beginsWith token.str "card" 4 then
    let token ← nextValue ptr token
    .ok (token, { config with card := token.value })
  else if beginsWith token.str "set" 3 then
    let (ptr, token) ← nextToken ptr token
    writeAt magicNumber config.values.length
    let name ← copyString magicNumber (strField token.type token.str)
    let id := intField token.type token.value
    let (_, token) ← nextToken ptr token
    let str ← copyString maxLineLen (strField token.type token.str)
    let value := intField token.type token.value
    .ok (token, { config with values := config.values ++ [⟨name, id, value, str⟩] })
  else .error .failed

def cnfparserParseControl (junk : Int) (body after : List Char) :
    Except CnfStop AlsaControlSettings :=
  parseSection controlLine junk body after .zero

/-! ## Streams -/

/-- The rest of a line of numbers. -/
def parseInts : Nat → Option (List Char) → CnfToken → List Int →
    Except CnfStop (CnfToken × List Int)
  | 0, _, token, values => .ok (token, values)
  | fuel + 1, ptr, token, values => do
      let (ptr, token) ← nextToken ptr token
      if ptr = none then .ok (token, values)
      else if token.type ≠ .int then .error .failed
      else
        let values ← store magicNumber values token.value
        parseInts fuel ptr token values

/-- The rest of a line of numbers and names.  The value of a name is stored before it
is checked. -/
def parseCodes (strToCode : List Char → Int) : Nat → Option (List Char) → CnfToken →
    List Int → Except CnfStop (CnfToken × List Int)
  | 0, _, token, values => .ok (token, values)
  | fuel + 1, ptr, token, values => do
      let (ptr, token) ← nextToken ptr token
      if ptr = none then .ok (token, values)
      else
        match token.type with
        | .int =>
            let values ← store magicNumber values token.value
            parseCodes strToCode fuel ptr token values
        | .str =>
            let values ← store magicNumber values (strToCode token.str)
            if strToCode token.str < 0 then .error .failed
            else parseCodes strToCode fuel ptr token values

/-- A line of a section for a stream.  Every value takes a character at least. -/
def pcmLine (line : List Char) (token : CnfToken) (params : AlsaPcmSettings) :
    Except CnfStop (CnfToken × AlsaPcmSettings) := do
  let (ptr, token) ← nextKeyword line token
  if beginsWith token.str "card" 4 then
    let token ← nextValue ptr token
    .ok (token, { params with card := token.value })
  else if beginsWith token.str "device" 6 then
    let token ← nextValue ptr token
    .ok (token, { params with device := token.value })
  else if beginsWith token.str "hw_resampling" 13 then
    let token ← nextValue ptr token
    .ok (token, { params with hwResampling := token.value })
  else if beginsWith token.str "channels" 8 then
    let (token, channels) ← parseInts (line.length + 1) ptr token params.channels
    .ok (token, { params with channels := channels })
  else if beginsWith token.str "rates" 5 then
    let (token, rates) ← parseInts (line.length + 1) ptr token params.rates
    .ok (token, { params with rates := rates })
  else if beginsWith token.str "formats" 7 then
    let (token, formats) ← parseCodes strToFormat (line.length + 1) ptr token params.formats
    .ok (token, { params with formats := formats })
  else if beginsWith token.str "access" 6 then
    let (token, access) ← parseCodes strToAccess (line.length + 1) ptr token params.access
    .ok (token, { params with access := access })
  else if beginsWith token.str "async" 5 then
    let (token, async) ← parseCodes strToAsync (line.length + 1) ptr token params.async
    .ok (token, { params with async := async })
  else if beginsWith token.str "duration" 8 then
    let token ← nextValue ptr token
    .ok (token, { params with duration := token.value })
  else if beginsWith token.str "freq" 4 then
    let token ← nextValue ptr token
    .ok (token, { params with freq := token.value })
  else if beginsWith token.str "link" 4 then
    let (ptr, token) ← nextInt ptr token
    let linkCard := token.value
    let (_, token) ← nextInt ptr token
    .ok (token, { params with linkCard := linkCard, linkDevice := token.value })
  else if beginsWith token.str "period_size" 4 then
    let token ← nextValue ptr token
    .ok (token, { params with periodSize := token.value })
  else if beginsWith token.str "volume" 6 then
    let token ← nextValue ptr token
    .ok (token, { params with volume := token.value })
  else .error .failed

def cnfparserParsePcm (junk : Int) (body after : List Char) (params : AlsaPcmSettings) :
    Except CnfStop AlsaPcmSettings :=
  parseSection pcmLine junk body after
    { params with linkCard := -1, linkDevice := -1, periodSize := -1, volume := 100 }

/-! ## Tuner and Bluetooth -/

/-- A line of a `[tuner]` section. -/
def tunerLine (line : List Char) (token : CnfToken) (tuner : V4lTunerSettings) :
    Except CnfStop (CnfToken × V4lTunerSettings) := do
  let (ptr, token) ← nextKeyword line token
  if token.str = "device".toList then
    let token ← nextString ptr token
    let device ← copyString settingLen token.str
    .ok (token, { tuner with device := device })
  else if token.str = "freq".toList then
    let (_, token) ← nextInt ptr token
    .ok (token, { tuner with freq := token.value })
  else if token.str = "scan_select".toList then
    let (_, token) ← nextInt ptr token
    .ok (token, { tuner with scan := token.value })
  else .error .failed

def cnfparserParseTuner (junk : Int) (body after : List Char) (params : AlsaTestset) :
    Except CnfStop AlsaTestset := do
  let tuner ← parseSection tunerLine junk body after { params.tuner with scan := -1 }
  .ok { params with tuner := tuner }

/-- A line of a `[bluetooth]` section. -/
def bluetoothLine (line : List Char) (token : CnfToken) (btaudio : BluetoothAudioSettings) :
    Except CnfStop (CnfToken × BluetoothAudioSettings) := do
  let (ptr, token) ← nextKeyword line token
  if token.str = "connect".toList then
    let token ← nextString ptr token
    let remoteMac ← copyString settingLen token.str
    .ok (token, { btaudio with remoteMac := remoteMac })
  else if token.str = "pin".toList then
    let token ← nextString ptr token
    let pin ← copyString settingLen token.str
    .ok (token, { btaudio with pin := pin })
  else .error .failed

def cnfparserParseBluetooth (junk : Int) (body after : List Char) (params : AlsaTestset) :
    Except CnfStop AlsaTestset := do
  let btaudio ← parseSection bluetoothLine junk body after params.btaudio
  .ok { params with btaudio := btaudio }

/-! ## Sections with sections in them -/

/-- `cnfparser_seek_section_end`: what stands before the line `tag`, and the rest from
there on. -/
def seekSectionEnd (tag : String) : Nat → List Char → List Char → Option (List Char) →
    Except CnfStop (Option (List Char × List Char))
  | 0, _, _, _ => .ok none
  | fuel + 1, body, after, line =>
      if body = [] then .ok none
      else do
        let (len, text) ← readLine (body ++ after) line
        if text = tag.toList then .ok (some ([], body))
        else
          let found ← seekSectionEnd tag fuel (body.drop (len + 1)) after (some text)
          .ok (found.map fun f => (body.take (len + 1) ++ f.1, f.2))

/-- The sections of a testset. -/
inductive TestsetSection where
  | playback
  | recording
  | control
  | wait
  | tuner
  | bluetooth
  deriving DecidableEq

def TestsetSection.tag : TestsetSection → String
  | .playback => "[playback]"
  | .recording => "[recording]"
  | .control => "[control]"
  | .wait => "[wait]"
  | .tuner => "[tuner]"
  | .bluetooth => "[bluetooth]"

def TestsetSection.endTag : TestsetSection → String
  | .playback => "[end_playback]"
  | .recording => "[end_recording]"
  | .control => "[end_control]"
  | .wait => "[end_wait]"
  | .tuner => "[end_tuner]"
  | .bluetooth => "[end_bluetooth]"

/-- The section that a line begins. -/
def sectionOf (line : List Char) : Option TestsetSection :=
  [.playback, .recording, .control, .wait, .tuner, .bluetooth].find? fun section_ =>
    line == section_.tag.toList

/-- `cnfparser_parse_config_section`, and the direction its caller sets. -/
def cnfparserParseConfigSection (junk : Int) (dir : StreamDir) (body after : List Char)
    (testset : AlsaTestset) : Except CnfStop AlsaTestset :=
  if testset.pcms.length ≥ maxStreams then .error .failed
  else do
    let pcm ← cnfparserParsePcm junk body after .zero
    .ok { testset with pcms := testset.pcms ++ [{ pcm with dir := dir }] }

/-- A section whose end has been found. -/
def parseTestsetPart (junk : Int) (body after : List Char) (testset : AlsaTestset) :
    TestsetSection → Except CnfStop AlsaTestset
  | .playback => cnfparserParseConfigSection junk .output body after testset
  | .recording => cnfparserParseConfigSection junk .input body after testset
  | .control =>
      if testset.ctls.length ≥ maxStreams then .error .failed
      else do
        let ctl ← cnfparserParseControl junk body after
        .ok { testset with ctls := testset.ctls ++ [ctl] }
  | .wait => cnfparserParseConfigSection junk .none body after testset
  | .tuner => cnfparserParseTuner junk body after testset
  | .bluetooth => cnfparserParseBluetooth junk body after testset

/-- A line of a testset that begins no section. -/
def testsetLine (line : List Char) (token : CnfToken) (testset : AlsaTestset) :
    Except CnfStop (CnfToken × AlsaTestset) := do
  let (tmp, token) ← nextToken (some line) token
  if tmp ≠ none ∧ token.type = .str ∧ beginsWith token.str "description" 11 then
    let token ← nextString tmp token
    let description ← copyString maxLineLen token.str
    .ok (token, { testset with description := description })
  else .ok (token, testset)

/-- The loop of `cnfparser_parse_testset_section`.  Where a section has no end, its
`section_start` is null, which is not at the end. -/
def parseTestset (junk : Int) : Nat → List Char → List Char → Option (List Char) → CnfToken →
    AlsaTestset → Except CnfStop AlsaTestset
  | 0, _, _, _, _, testset => .ok testset
  | fuel + 1, body, after, line, token, testset =>
      if body = [] then .ok testset
      else do
        let (len, text) ← readLine (body ++ after) line
        let rest := body.drop (len + 1)
        match sectionOf text with
        | some section_ =>
            let found ← seekSectionEnd section_.endTag rest.length rest after none
            let sectionEnd ← deref found
            let testset ← parseTestsetPart junk sectionEnd.1 (sectionEnd.2 ++ after) testset
              section_
            parseTestset junk fuel sectionEnd.2 after (some text) token testset
        | none =>
            let s ← testsetLine text token testset
            parseTestset junk fuel rest after (some text) s.1 s.2

def cnfparserParseTestsetSection (junk : Int) (body after : List Char)
    (config : AlsaConfiguration) : Except CnfStop AlsaConfiguration := do
  writeAt magicNumber config.testsets.length
  let testset ← parseTestset junk body.length body after none
    { type := .int, value := junk, str := [] } .zero
  .ok { config with testsets := config.testsets ++ [testset] }

/-- The loop of `cnfparser_parse_defaults_section`. -/
def parseDefaults (junk : Int) : Nat → List Char → List Char → Option (List Char) →
    AlsaConfiguration → Except CnfStop AlsaConfiguration
  | 0, _, _, _, config => .ok config
  | fuel + 1, body, after, line, config =>
      if body = [] then .ok config
      else do
        let (len, text) ← readLine (body ++ after) line
        let rest := body.drop (len + 1)
        if text = "[control]".toList then
          let found ← seekSectionEnd "[end_control]" rest.length rest after none
          let sectionEnd ← deref found
          if config.defCtls.length ≥ maxStreams then .error .failed
          else
            let ctl ← cnfparserParseControl junk sectionEnd.1 (sectionEnd.2 ++ after)
            parseDefaults junk fuel sectionEnd.2 after (some text)
              { config with defCtls := config.defCtls ++ [ctl] }
        else parseDefaults junk fuel rest after (some text) config

def cnfparserParseDefaultsSection (junk : Int) (body after : List Char)
    (config : AlsaConfiguration) : Except CnfStop AlsaConfiguration :=
  parseDefaults junk body.length body after none config

/-- The loop of `cnfparser_parse_sections`. -/
def parseSections (junk : Int) : Nat → List Char → Option (List Char) → AlsaConfiguration →
    Except CnfStop AlsaConfiguration
  | 0, _, _, config => .ok config
  | fuel + 1, buf, line, config =>
      if buf = [] then .ok config
      else do
        let (len, text) ← readLine buf line
        let rest := buf.drop (len + 1)
        if text = "[testset]".toList then
          let found ← seekSectionEnd "[end_testset]" rest.length rest [] none
          let sectionEnd ← deref found
          let config ← cnfparserParseTestsetSection junk sectionEnd.1 sectionEnd.2 config
          parseSections junk fuel sectionEnd.2 (some text) config
        else if text = "[defaults]".toList then
          let found ← seekSectionEnd "[end_defaults]" rest.length rest [] none
          let sectionEnd ← deref found
          let config ← cnfparserParseDefaultsSection junk sectionEnd.1 sectionEnd.2 config
          parseSections junk fuel sectionEnd.2 (some text) config
        else parseSections junk fuel rest (some text) config

def cnfparserParseSections (junk : Int) (buf : List Char) :
    Except CnfStop AlsaConfiguration :=
  parseSections junk buf.length buf none .zero

/-! ## Reading a file -/

/-- What `alsa_read_config` returns: 0 with a configuration, or an error. -/
inductive ReadResult where
  | config (config : AlsaConfiguration)
  | error (err : Int)
  deriving DecidableEq

/-- `UINT_MAX + 1`. -/
def uintLimit : Nat := 4294967296

/-- What a C string in a buffer of the given contents is. -/
def cString (contents : List Char) : List Char :=
  contents.takeWhile (· ≠ '\x00')

/-- The text that `alsa_read_config` reads: the length of the file goes into an
`unsigned int`, and the buffer is one longer. -/
def readFile (contents : List Char) : Except CnfStop (List Char) :=
  let len := contents.length % uintLimit
  if len + 1 < uintLimit then .ok (cString (contents.take len))
  else .error (.fault .outOfBounds)

/-- `alsa_read_config`; a file that cannot be opened has no contents. -/
def alsaReadConfig (junk : Int) : Option (List Char) → Except CnfStop ReadResult
  | none => .ok (.error (-1))
  | some contents => do
      let buf ← readFile contents
      let cleanBuf ← cnfparserCleanup buf
      match cnfparserParseSections junk cleanBuf with
      | .ok config => .ok (.config config)
      | .error .failed => .ok (.error 1)
      | .error stop => .error stop

end Blts.Alsa
