import Blts.Alsa.Sections

/-!
# The configuration file of the OpenGL ES tests

`read_config` cleans the whole text of the file in three passes, in place, and then
searches it once for every setting.  Reading a line (`cnfparser_readline`) and the
removal of comments are the functions of the ALSA tests, as is the start of
`read_config`; the other passes and the searches differ.

Numbers of floating point are those of a library (`Floats`).
-/

namespace Blts.Gles

open Blts.Alsa (CnfStop cnfparserReadline maxLineLen quoteAfter readFile readLine
  removeComments)

/-! ## Settings -/

/-- The values of type `float` and what the C library does with them. -/
structure Floats (F : Type) where
  /-- `atof`, stored in a `float` -/
  atof : List Char → F
  /-- an `int` stored in a `float` -/
  ofInt : Int → F
  /-- `== 0.0f`, `== 1.0f` and `== -1.0f` -/
  isZero : F → Bool
  isOne : F → Bool
  isMinusOne : F → Bool
  /-- what `sprintf` writes for `%.2f` -/
  fixed2 : F → List Char

/-- `MAX_CONV_MAT_SIZE`. -/
def maxConvMatSize : Nat := 128

/-- `PATH_MAX`. -/
def pathMax : Nat := 4096

/-- `test_configuration_file_params`. -/
structure TestConfigurationFileParams (F : Type) where
  scaleImagesToWindow : Int
  desktopCount : Int
  layerCount : Int
  widgetCount : Int
  particleCount : Int
  videoWidgetTexWidth : Int
  videoWidgetTexHeight : Int
  videoWidgetGenerationFreq : Int
  scrollSpeed : Int
  compositorCmd : List Char
  convolutionMat : Vector F maxConvMatSize
  convolutionMatSize : Nat
  convolutionMatDivisor : F
  deriving DecidableEq

variable {F : Type}

/-! ## Cleaning the text -/

/-- The first pass: carriage returns, tabs and spaces go, except in strings. -/
def removeBlanks (inStr : Bool) : List Char → List Char
  | [] => []
  | c :: cs =>
      if !quoteAfter inStr c && (c == '\r' || c == '\t' || c == ' ') then
        removeBlanks (quoteAfter inStr c) cs
      else c :: removeBlanks (quoteAfter inStr c) cs

/-- `cnfparser_remove_data`, whose result nobody looks at. -/
def cnfparserRemoveData (buf : List Char) (startpos len : Nat) :
    Except CnfStop (List Char) :=
  let blen := buf.length
  if startpos ≥ blen ∨ len > blen then .ok buf
  else if startpos + len ≤ blen + 1 then .ok (buf.take startpos ++ buf.drop (startpos + len))
  else .error (.fault .outOfBounds)

/-- A round of the third pass: the text that has been passed and the text at `ptr`. -/
def joinRound (buf : List Char) : Except CnfStop (List Char × List Char) := do
  let r ← cnfparserReadline buf none
  let len := r.1
  -- `ptr[len-1]`, an `unsigned int` as index
  if len = 0 then .error .astray
  else if buf[len - 1]? = some '\\' then
    let rest ← cnfparserRemoveData (buf.drop (len - 1)) 0 2
    .ok ([], buf.take (len - 1) ++ rest)
  else .ok (buf.take (len + 1), buf.drop (len + 1))

/-- The third pass, lines that end with a backslash are joined with the next: `none` if
it has not come to an end after the rounds. -/
def joinLines : Nat → List Char → Option (Except CnfStop (List Char))
  | 0, buf => if buf = [] then some (.ok []) else none
  | rounds + 1, buf =>
      if buf = [] then some (.ok [])
      else
        match joinRound buf with
        | .error stop => some (.error stop)
        | .ok (passed, rest) => (joinLines rounds rest).map fun r => r.map (passed ++ ·)

/-- `cnfparser_cleanup`; a failing `malloc` is not noticed. -/
def cnfparserCleanup (rounds : Nat) (memory : Bool) (buf : List Char) :
    Option (Except CnfStop (List Char)) :=
  if memory = false then some (.error (.fault .nullDeref))
  else
    let buf := removeBlanks false buf
    match removeComments buf.length buf with
    | .error stop => some (.error stop)
    | .ok buf => joinLines rounds buf

/-! ## Searching for a setting -/

/-- The size of `param_name`. -/
def paramNameSize : Nat := 64

/-- What stands before the first colon. -/
def paramName (line : List Char) : Option (List Char) :=
  if ':' ∈ line then some (line.takeWhile (· ≠ ':')) else none

/-- The loop of `cnfparser_read_str` and `cnfparser_read_val`: the first line with the
name. -/
def searchSetting (name : List Char) : Nat → List Char → Option (List Char) →
    Except CnfStop (Option (List Char))
  | 0, _, _ => .ok none
  | fuel + 1, buf, line =>
      if buf = [] then .ok none
      else do
        let (len, text) ← readLine buf line
        match paramName text with
        | none => searchSetting name fuel (buf.drop (len + 1)) (some text)
        | some found =>
            if found.length < paramNameSize then
              if found = name then .ok (some text)
              else searchSetting name fuel (buf.drop (len + 1)) (some text)
            else .error (.fault .outOfBounds)

/-- What stands between the first two quotes. -/
def quoted (line : List Char) : Option (List Char) :=
  match line.dropWhile (· ≠ '"') with
  | [] => none
  | _ :: rest => if '"' ∈ rest then some (rest.takeWhile (· ≠ '"')) else none

/-- What `cnfparser_read_str` does with the line that has been found. -/
def copyQuoted (size : Nat) : Option (List Char) → Except CnfStop (Option (List Char))
  | none => .ok none
  | some line =>
      match quoted line with
      | none => .error .failed
      | some str => if str.length < size then .ok (some str) else .error (.fault .outOfBounds)

/-- `cnfparser_read_str` into a buffer of a size; there is no string if the name is not
found. -/
def cnfparserReadStr (buf : List Char) (name : String) (size : Nat) :
    Except CnfStop (Option (List Char)) := do
  let line ← searchSetting name.toList buf.length buf none
  copyQuoted size line

/-- The digits at the end of a line. -/
def lastDigits (line : List Char) : List Char :=
  ((line.drop 1).reverse.takeWhile Char.isDigit).reverse

/-- `cnfparser_read_val` up to the conversion of the digits. -/
def cnfparserReadVal (buf : List Char) (name : String) : Except CnfStop (Option (List Char)) := do
  let line ← searchSetting name.toList buf.length buf none
  .ok (line.map lastDigits)

/-! ## The matrix -/

/-- The size of `tmp` in `cnfparser_parse_matrix`. -/
def tmpSize : Nat := 8

/-- `mat[p] = v`. -/
def storeElement (mat : Vector F maxConvMatSize) (p : Nat) (v : F) :
    Except CnfStop (Vector F maxConvMatSize) :=
  if h : p < maxConvMatSize then .ok (mat.set p v h) else .error (.fault .outOfBounds)

/-- `tmp`, which has not been written before the first character. -/
def readTmp : Option (List Char) → Except CnfStop (List Char)
  | some str => .ok str
  | none => .error .unset

/-- What comes after the loop of `cnfparser_parse_matrix`. -/
def closeMatrix (lib : Floats F) (mat : Vector F maxConvMatSize) (tmp : Option (List Char))
    (p i : Nat) : Except CnfStop (Vector F maxConvMatSize × Nat) := do
  if i = 0 then
    let mat ← storeElement mat p (lib.ofInt 0)
    .ok (mat, p)
  else
    let str ← readTmp tmp
    let mat ← storeElement mat p (lib.ofInt (Cli.atoi str))
    let mat ← storeElement mat (p + 1) (lib.ofInt 0)
    .ok (mat, p + 1)

/-- The loop of `cnfparser_parse_matrix`. -/
def scanMatrix (lib : Floats F) (mat : Vector F maxConvMatSize) (tmp : Option (List Char))
    (p i : Nat) : List Char → Except CnfStop (Vector F maxConvMatSize × Nat)
  | [] => closeMatrix lib mat tmp p i
  | c :: cs =>
      if c = ',' then do
        let str ← readTmp tmp
        let mat ← storeElement mat p (lib.atof str)
        scanMatrix lib mat tmp (p + 1) 0 cs
      else if i ≥ tmpSize then .ok (mat, 0)
      -- `tmp[i] = 0` after the character
      else if i + 1 < tmpSize then
        scanMatrix lib mat (some ((tmp.getD []).take i ++ [c])) p (i + 1) cs
      else .error (.fault .outOfBounds)

/-- `cnfparser_parse_matrix`. -/
def cnfparserParseMatrix (lib : Floats F) (mat : Vector F maxConvMatSize) (str : List Char) :
    Except CnfStop (Vector F maxConvMatSize × Nat) :=
  scanMatrix lib mat none 0 0 str

/-! ## Reading a file -/

/-- The settings of type `int`, in the order in which they are read. -/
def intSettings : List (String ×
    (TestConfigurationFileParams F → Int → TestConfigurationFileParams F)) :=
  [("scale_images_to_window", fun config val => { config with scaleImagesToWindow := val }),
    ("video_widget_generation_freq",
      fun config val => { config with videoWidgetGenerationFreq := val }),
    ("video_widget_texture_width", fun config val => { config with videoWidgetTexWidth := val }),
    ("video_widget_texture_height",
      fun config val => { config with videoWidgetTexHeight := val }),
    ("desktop_count", fun config val => { config with desktopCount := val }),
    ("layer_count", fun config val => { config with layerCount := val }),
    ("widget_count", fun config val => { config with widgetCount := val }),
    ("particle_count", fun config val => { config with particleCount := val }),
    ("scroll_speed", fun config val => { config with scrollSpeed := val })]

/-- A setting that is not in the file stays. -/
def readInt (buf : List Char) (config : TestConfigurationFileParams F)
    (setting : String × (TestConfigurationFileParams F → Int → TestConfigurationFileParams F)) :
    Except CnfStop (TestConfigurationFileParams F) := do
  let digits ← cnfparserReadVal buf setting.1
  match digits with
  | none => .ok config
  | some digits => .ok (setting.2 config (Alsa.atoi digits))

/-- The matrix; `line` holds nothing if the setting is not in the file. -/
def readMatrix (lib : Floats F) (buf : List Char) (config : TestConfigurationFileParams F) :
    Except CnfStop (TestConfigurationFileParams F) := do
  let line ← cnfparserReadStr buf "convolution_mat" maxLineLen
  let line ← readTmp line
  let r ← cnfparserParseMatrix lib config.convolutionMat line
  .ok { config with convolutionMat := r.1, convolutionMatSize := r.2 }

/-- `cnfparser_parse_config`, and `cnfparser_parse_sections`. -/
def cnfparserParseConfig (lib : Floats F) (buf : List Char)
    (config : TestConfigurationFileParams F) :
    Except CnfStop (TestConfigurationFileParams F) := do
  let config ← intSettings.foldlM (readInt buf) config
  let cmd ← cnfparserReadStr buf "compositor_cmd" pathMax
  let config := { config with compositorCmd := cmd.getD config.compositorCmd }
  let config ← readMatrix lib buf config
  let digits ← cnfparserReadVal buf "convolution_mat_divisor"
  .ok { config with
    convolutionMatDivisor := (digits.map lib.atof).getD config.convolutionMatDivisor }

/-- What `read_config` returns: 0 with the settings, or an error. -/
inductive ConfigResult (F : Type) where
  | config (config : TestConfigurationFileParams F)
  | error (err : Int)
  deriving DecidableEq

/-- The result for a cleaned text. -/
def parseResult : Except CnfStop (TestConfigurationFileParams F) →
    Except CnfStop (ConfigResult F)
  | .ok config => .ok (.config config)
  | .error .failed => .ok (.error 1)
  | .error stop => .error stop

/-- `read_config`, `none` if the cleaning has not come to an end after the rounds.  A file
that cannot be opened or read has no contents; `memory` is the result of the second
`malloc`. -/
def readConfig (lib : Floats F) (rounds : Nat) (memory : Bool)
    (config : TestConfigurationFileParams F) :
    Option (List Char) → Option (Except CnfStop (ConfigResult F))
  | none => some (.ok (.error (-1)))
  | some contents =>
      match readFile contents with
      | .error stop => some (.error stop)
      | .ok buf =>
          (cnfparserCleanup rounds memory buf).map fun cleanBuf => do
            let cleanBuf ← cleanBuf
            parseResult (cnfparserParseConfig lib cleanBuf config)

end Blts.Gles
