import Blts.Lib.Table
import Blts.Gles.ConfigReads
import Blts.Gles.ConvolutionFilter

/-!
# The scene of `test_blitter`

`init` builds the convolution filter and then the scenes: each has a number of desktops,
and those of the first one have widgets with particles.  All of them are cells of fixed
tables, and the numbers come from the configuration.

What the surroundings do is not known: whether there is memory, whether the shaders and
the video images are made, and for every call whether a texture is loaded.
-/

namespace Blts.Gles

open Blts.Lib

/-! ## Building -/

/-- `MAX_DESKTOPS`. -/
def maxDesktops : Nat := 16

/-- `MAX_SCENES`. -/
def maxScenes : Nat := 16

/-- `MAX_WIDGETS`. -/
def maxWidgets : Nat := 16

/-- `MAX_PARTICLES`. -/
def maxParticles : Nat := 40

/-- The flags that the building of the scene looks at, by `T_FLAG_`. -/
structure BlitterFlags where
  blend : Bool
  widgets : Bool
  particles : Bool
  videoWidgets : Bool
  convolution : Bool

/-- What is not under the control of the test. -/
structure Surroundings where
  /-- the results of `malloc` -/
  memory : Bool
  /-- `load_shaders` -/
  shaders : Bool
  /-- `glesh_generate_pattern` -/
  patterns : Bool
  /-- `glesh_texture_from_bmp_file`, at each call -/
  texture : Nat → Bool

/-- `s_widget`. -/
structure SWidget where
  numParticles : Nat

/-- `s_desktop`. -/
abbrev SDesktop := Table SWidget maxWidgets

/-- `s_scene`. -/
abbrev SScene := Table SDesktop maxDesktops

/-- `scenes` and `num_scenes` of `s_test_data`. -/
abbrev SScenes := Table SScene maxScenes

/-- What `memset` leaves. -/
def SWidget.zero : SWidget where
  numParticles := 0

def SDesktop.zero : SDesktop := .empty .zero

def SScene.zero : SScene := .empty .zero

def SScenes.zero : SScenes := .empty .zero

section

variable {F : Type} (surroundings : Surroundings) (flags : BlitterFlags)
  (config : TestConfigurationFileParams F)

/-- The loop over the particles of a widget. -/
def addParticles : Nat → SWidget → Except Fault SWidget
  | 0, widget => .ok widget
  | count + 1, widget =>
      if widget.numParticles < maxParticles then
        addParticles count { numParticles := widget.numParticles + 1 }
      else .error .outOfBounds

/-- The particles of a widget, if it has any. -/
def fillWidget (widget : SWidget) : Except Fault SWidget :=
  if flags.particles then addParticles config.particleCount.toNat widget else .ok widget

/-- `generate_widget`, with the number of the next call that loads a texture. -/
def generateWidget (r : SDesktop × Nat) : Except Fault (SDesktop × Nat) :=
  if flags.videoWidgets = false ∧ surroundings.texture r.2 = false then .ok (r.1, r.2 + 1)
  else r.1.extend .outOfBounds fun widget => do
    let widget ← fillWidget flags config widget
    .ok (widget, if flags.videoWidgets then r.2 else r.2 + 1)

/-- A row of widgets.  The loop ends where `t++ >= num_widgets`. -/
def widgetRow (numWidgets : Int) : Nat → Nat → SDesktop × Nat →
    Except Fault (Nat × SDesktop × Nat)
  | 0, t, r => .ok (t, r)
  | x + 1, t, r =>
      if numWidgets ≤ t then .ok (t + 1, r)
      else do
        let r ← generateWidget surroundings flags config r
        widgetRow numWidgets x (t + 1) r

/-- The rows of widgets. -/
def widgetRows (numWidgets : Int) : Nat → Nat → SDesktop × Nat → Except Fault (SDesktop × Nat)
  | 0, _, r => .ok r
  | y + 1, t, r => do
      let row ← widgetRow surroundings flags config numWidgets 4 t r
      widgetRows numWidgets y row.1 row.2

/-- `generate_desktop`. -/
def generateDesktop (numWidgets : Int) (r : SScene × Nat) : Except Fault (SScene × Nat) :=
  if surroundings.texture r.2 = false then .ok (r.1, r.2 + 1)
  else r.1.extend .outOfBounds fun desktop =>
    widgetRows surroundings flags config numWidgets 4 0 (desktop, r.2 + 1)

/-- The loop over the desktops of a scene. -/
def desktopLoop (numWidgets : Int) : Nat → SScene × Nat → Except Fault (SScene × Nat)
  | 0, r => .ok r
  | count + 1, r => do
      let r ← generateDesktop surroundings flags config numWidgets r
      desktopLoop numWidgets count r

/-- A round of the loop over the scenes.  Without desktops the scene is only counted. -/
def buildScene (numWidgets : Int) (r : SScenes × Nat) : Except Fault (SScenes × Nat) :=
  if config.desktopCount ≤ 0 then .ok ({ r.1 with count := r.1.count + 1 }, r.2)
  else r.1.extend .outOfBounds fun scene =>
    desktopLoop surroundings flags config numWidgets config.desktopCount.toNat (scene, r.2)

/-- The loop over the scenes, of which only the first has widgets. -/
def sceneLoop : Nat → Int → SScenes × Nat → Except Fault (SScenes × Nat)
  | 0, _, r => .ok r
  | count + 1, numWidgets, r => do
      let r ← buildScene surroundings flags config numWidgets r
      sceneLoop count 0 r

/-- `scenecount`. -/
def sceneCount : Int :=
  if flags.blend then config.layerCount else 1

/-- `widgetcount`. -/
def widgetCount : Int :=
  if flags.widgets then config.widgetCount else 0

/-- `init` after the filter. -/
def initScenes : Except Fault (Option SScenes) :=
  if surroundings.shaders = false then .ok none
  else if flags.videoWidgets && !surroundings.patterns then .ok none
  else do
    let r ← sceneLoop surroundings flags config (sceneCount flags config).toNat
      (widgetCount flags config) (.zero, 0)
    .ok (some r.1)

/-- `init`: the scenes, or nothing if it fails. -/
def init (lib : Floats F) : Except Fault (Option SScenes) :=
  if flags.convolution then do
    let shader ← buildConvolutionFilter lib surroundings.memory config.convolutionMat
      config.convolutionMatSize config.convolutionMatDivisor
    match shader with
    | none => .ok none
    | some _ => initScenes surroundings flags config
  else initScenes surroundings flags config

end

/-! ## What fits -/

section

variable {F : Type} (flags : BlitterFlags) (config : TestConfigurationFileParams F)

/-- The particles of a widget fit. -/
def ParticlesFit : Prop :=
  flags.particles = true → config.particleCount ≤ maxParticles

/-- If there is a desktop at all, the desktops of a scene and the scenes fit, and if there
are widgets their particles fit. -/
def SceneFits : Prop :=
  0 < config.desktopCount → 0 < sceneCount flags config →
    config.desktopCount ≤ maxDesktops ∧ sceneCount flags config ≤ maxScenes ∧
      (0 < widgetCount flags config → ParticlesFit flags config)

end

section

variable {F : Type} {surroundings : Surroundings} {flags : BlitterFlags}
  {config : TestConfigurationFileParams F}

theorem addParticles_ok_iff : ∀ {count : Nat} {widget : SWidget},
    widget.numParticles ≤ maxParticles →
      ((∃ widget', addParticles count widget = .ok widget') ↔
        widget.numParticles + count ≤ maxParticles) := by
  intro count
  induction count with
  | zero => exact fun h => iff_of_true ⟨_, rfl⟩ h
  | succ count ih =>
      intro widget h
      rw [addParticles]
      by_cases hlt : widget.numParticles < maxParticles
      · rw [if_pos hlt, ih hlt]
        show widget.numParticles + 1 + count ≤ _ ↔ _
        omega
      · rw [if_neg hlt]
        refine iff_of_false ?_ (by omega)
        rintro ⟨widget', h'⟩
        cases h'

theorem fillWidget_ok_iff :
    (∃ widget, fillWidget flags config .zero = .ok widget) ↔ ParticlesFit flags config := by
  unfold fillWidget ParticlesFit
  cases flags.particles with
  | false => exact iff_of_true ⟨_, rfl⟩ fun h => by cases h
  | true =>
      have hzero : SWidget.zero.numParticles ≤ maxParticles := Nat.zero_le _
      rw [if_pos rfl, addParticles_ok_iff hzero, forall_prop_of_true rfl]
      show 0 + config.particleCount.toNat ≤ maxParticles ↔ _
      omega

/-! ## Where everything fits -/

/-- What is left of a table that is filled: blank cells behind the count. -/
def Filled {α : Type} {n : Nat} (blank : α) (count : Nat) (t : Table α n) : Prop :=
  t.Fresh blank ∧ t.count ≤ count

variable (surroundings)

theorem generateWidget_ok (hfit : ParticlesFit flags config) {r : SDesktop × Nat} {count : Nat}
    (hr : Filled .zero count r.1) (hcount : count < maxWidgets) :
    ∃ r', generateWidget surroundings flags config r = .ok r' ∧
      Filled .zero (count + 1) r'.1 := by
  unfold generateWidget
  split
  · exact ⟨_, rfl, hr.1, Nat.le_succ_of_le hr.2⟩
  · obtain ⟨widget, hwidget⟩ := fillWidget_ok_iff.mpr hfit
    have hlt := Nat.lt_of_le_of_lt hr.2 hcount
    have hfill : (fillWidget flags config .zero >>= fun widget =>
          Except.ok (widget, if flags.videoWidgets then r.2 else r.2 + 1)) =
        .ok (widget, if flags.videoWidgets then r.2 else r.2 + 1) := by
      simp only [hwidget, bind, Except.bind]
    exact ⟨_, Table.extend_ok hr.1 hlt hfill, Table.fresh_set hr.1 hlt widget,
      Nat.succ_le_succ hr.2⟩

/-- **A row of widgets.** -/
theorem widgetRow_ok {numWidgets : Int} (hfit : 0 < numWidgets → ParticlesFit flags config) :
    ∀ {n t : Nat} {r : SDesktop × Nat}, Filled .zero t r.1 → t + n ≤ maxWidgets →
      ∃ t' r', widgetRow surroundings flags config numWidgets n t r = .ok (t', r') ∧
        t' ≤ t + n ∧ Filled .zero t' r'.1 := by
  intro n
  induction n with
  | zero => exact fun {t r} hr _ => ⟨t, r, rfl, Nat.le_refl _, hr⟩
  | succ n ih =>
      intro t r hr hle
      rw [widgetRow]
      split
      · exact ⟨_, _, rfl, by omega, hr.1, Nat.le_succ_of_le hr.2⟩
      · next hmore =>
          obtain ⟨r', hr', hfilled⟩ :=
            generateWidget_ok surroundings (hfit (by omega)) hr (by omega)
          obtain ⟨t', r'', hrow, hle', hfilled'⟩ := ih hfilled (by omega)
          refine ⟨t', r'', ?_, by omega, hfilled'⟩
          simp only [hr', hrow, bind, Except.bind]

/-- **The rows of widgets.** -/
theorem widgetRows_ok {numWidgets : Int} (hfit : 0 < numWidgets → ParticlesFit flags config) :
    ∀ {y t : Nat} {r : SDesktop × Nat}, Filled .zero t r.1 → t + 4 * y ≤ maxWidgets →
      ∃ r', widgetRows surroundings flags config numWidgets y t r = .ok r' := by
  intro y
  induction y with
  | zero => exact fun {t r} _ _ => ⟨r, rfl⟩
  | succ y ih =>
      intro t r hr hle
      obtain ⟨t', r', hrow, hle', hfilled⟩ :=
        widgetRow_ok surroundings hfit hr (n := 4) (by omega)
      obtain ⟨r'', hrows⟩ := ih hfilled (by omega)
      refine ⟨r'', ?_⟩
      rw [widgetRows]
      simp only [hrow, hrows, bind, Except.bind]

/-- **A desktop.** -/
theorem generateDesktop_ok {numWidgets : Int}
    (hfit : 0 < numWidgets → ParticlesFit flags config) {r : SScene × Nat} {count : Nat}
    (hr : Filled .zero count r.1) (hcount : count < maxDesktops) :
    ∃ r', generateDesktop surroundings flags config numWidgets r = .ok r' ∧
      Filled .zero (count + 1) r'.1 := by
  unfold generateDesktop
  split
  · exact ⟨_, rfl, hr.1, Nat.le_succ_of_le hr.2⟩
  · have hlt := Nat.lt_of_le_of_lt hr.2 hcount
    have hblank : Filled SWidget.zero 0 SDesktop.zero := ⟨Table.fresh_empty, Nat.le_refl 0⟩
    obtain ⟨d, hd⟩ := widgetRows_ok surroundings hfit (y := 4) (t := 0)
      (r := (SDesktop.zero, r.2 + 1)) hblank (by decide)
    exact ⟨_, Table.extend_ok hr.1 hlt hd, Table.fresh_set hr.1 hlt d.1, Nat.succ_le_succ hr.2⟩

/-- **The desktops of a scene.** -/
theorem desktopLoop_ok {numWidgets : Int} (hfit : 0 < numWidgets → ParticlesFit flags config) :
    ∀ {n count : Nat} {r : SScene × Nat}, Filled .zero count r.1 → count + n ≤ maxDesktops →
      ∃ r', desktopLoop surroundings flags config numWidgets n r = .ok r' := by
  intro n
  induction n with
  | zero => exact fun {count r} _ _ => ⟨r, rfl⟩
  | succ n ih =>
      intro count r hr hle
      obtain ⟨r', hr', hfilled⟩ :=
        generateDesktop_ok surroundings hfit hr (by omega)
      obtain ⟨r'', hloop⟩ := ih hfilled (by omega)
      refine ⟨r'', ?_⟩
      rw [desktopLoop]
      simp only [hr', hloop, bind, Except.bind]

/-- **A scene.** -/
theorem buildScene_ok {numWidgets : Int} (hfit : 0 < config.desktopCount →
      config.desktopCount ≤ maxDesktops ∧ (0 < numWidgets → ParticlesFit flags config))
    {r : SScenes × Nat} {count : Nat} (hr : Filled .zero count r.1)
    (hcount : 0 < config.desktopCount → count < maxScenes) :
    ∃ r', buildScene surroundings flags config numWidgets r = .ok r' ∧
      Filled .zero (count + 1) r'.1 := by
  unfold buildScene
  split
  · exact ⟨_, rfl, fun j hj hle => hr.1 j hj (Nat.le_of_succ_le hle), Nat.succ_le_succ hr.2⟩
  · next hpos =>
      obtain ⟨hdesktops, hparticles⟩ := hfit (by omega)
      have hlt := Nat.lt_of_le_of_lt hr.2 (hcount (by omega))
      have hblank : Filled SDesktop.zero 0 SScene.zero := ⟨Table.fresh_empty, Nat.le_refl 0⟩
      obtain ⟨scene, hscene⟩ := desktopLoop_ok surroundings hparticles
        (n := config.desktopCount.toNat) (r := (SScene.zero, r.2)) hblank (by omega)
      exact ⟨_, Table.extend_ok hr.1 hlt hscene, Table.fresh_set hr.1 hlt scene.1,
        Nat.succ_le_succ hr.2⟩

/-- **The scenes.** -/
theorem sceneLoop_ok (hdesktops : 0 < config.desktopCount → config.desktopCount ≤ maxDesktops) :
    ∀ {n count : Nat} {numWidgets : Int} {r : SScenes × Nat}, Filled .zero count r.1 →
      (0 < config.desktopCount → 0 < n → count + n ≤ maxScenes ∧
        (0 < numWidgets → ParticlesFit flags config)) →
      ∃ r', sceneLoop surroundings flags config n numWidgets r = .ok r' := by
  intro n
  induction n with
  | zero => exact fun {count numWidgets r} _ _ => ⟨r, rfl⟩
  | succ n ih =>
      intro count numWidgets r hr hfit
      obtain ⟨r', hr', hfilled⟩ := buildScene_ok surroundings
        (fun hpos => ⟨hdesktops hpos, (hfit hpos (Nat.succ_pos n)).2⟩) hr fun hpos => by
          have := (hfit hpos (Nat.succ_pos n)).1
          omega
      have hrest : 0 < config.desktopCount → 0 < n → count + 1 + n ≤ maxScenes ∧
          (0 < (0 : Int) → ParticlesFit flags config) := fun hpos _ =>
        ⟨by have := (hfit hpos (Nat.succ_pos n)).1; omega, fun h => absurd h (by decide)⟩
      obtain ⟨r'', hloop⟩ := ih hfilled hrest
      refine ⟨r'', ?_⟩
      rw [sceneLoop]
      simp only [hr', hloop, bind, Except.bind]

end

/-! ## Where something does not -/

/-- Surroundings in which everything is there. -/
def Surroundings.plenty : Surroundings where
  memory := true
  shaders := true
  patterns := true
  texture _ := true

section

variable {F : Type} {flags : BlitterFlags} {config : TestConfigurationFileParams F}
  {numWidgets : Int}

theorem particlesFit_of_widget {r r' : SDesktop × Nat} (hfresh : r.1.Fresh .zero)
    (h : generateWidget .plenty flags config r = .ok r') : ParticlesFit flags config := by
  unfold generateWidget at h
  rw [if_neg fun hnot => by cases hnot.2] at h
  obtain ⟨_, a, s, hfill, _⟩ := (Table.extend_ok_iff hfresh).mp h
  obtain ⟨widget, hwidget, _⟩ := exists_of_bind_eq_ok hfill
  exact fillWidget_ok_iff.mp ⟨widget, hwidget⟩

theorem particlesFit_of_rows {calls : Nat} {r : SDesktop × Nat} (hmore : 0 < numWidgets)
    (h : widgetRows .plenty flags config numWidgets 4 0 (SDesktop.zero, calls) = .ok r) :
    ParticlesFit flags config := by
  obtain ⟨row, hrow, _⟩ := exists_of_bind_eq_ok h
  have hfirst : ¬ numWidgets ≤ (0 : Nat) := by omega
  rw [widgetRow, if_neg hfirst] at hrow
  obtain ⟨r', hr', _⟩ := exists_of_bind_eq_ok hrow
  exact particlesFit_of_widget Table.fresh_empty hr'

theorem desktop_of_ok {r r' : SScene × Nat} (hfresh : r.1.Fresh .zero)
    (h : generateDesktop .plenty flags config numWidgets r = .ok r') :
    r.1.count < maxDesktops ∧ r'.1.count = r.1.count + 1 ∧ r'.1.Fresh .zero ∧
      (0 < numWidgets → ParticlesFit flags config) := by
  unfold generateDesktop at h
  rw [if_neg fun hnot => by cases hnot] at h
  obtain ⟨hlt, a, s, hfill, rfl⟩ := (Table.extend_ok_iff hfresh).mp h
  exact ⟨hlt, rfl, Table.fresh_set hfresh hlt a, fun hmore => particlesFit_of_rows hmore hfill⟩

theorem desktops_of_ok : ∀ {n : Nat} {r r' : SScene × Nat}, r.1.Fresh .zero →
    desktopLoop .plenty flags config numWidgets n r = .ok r' → 0 < n →
      r.1.count + n ≤ maxDesktops ∧ (0 < numWidgets → ParticlesFit flags config) := by
  intro n
  induction n with
  | zero => exact fun _ _ h => absurd h (Nat.lt_irrefl 0)
  | succ n ih =>
      intro r r' hfresh h _
      obtain ⟨r'', hdesktop, hloop⟩ := exists_of_bind_eq_ok h
      obtain ⟨hlt, hcount, hfresh', hfit⟩ := desktop_of_ok hfresh hdesktop
      refine ⟨?_, hfit⟩
      by_cases hn : 0 < n
      · have hle := (ih hfresh' hloop hn).1
        omega
      · omega

theorem scene_of_ok {r r' : SScenes × Nat} (hfresh : r.1.Fresh .zero)
    (h : buildScene .plenty flags config numWidgets r = .ok r') :
    r'.1.count = r.1.count + 1 ∧ r'.1.Fresh .zero ∧ (0 < config.desktopCount →
      r.1.count < maxScenes ∧ config.desktopCount ≤ maxDesktops ∧
        (0 < numWidgets → ParticlesFit flags config)) := by
  unfold buildScene at h
  by_cases hpos : config.desktopCount ≤ 0
  · rw [if_pos hpos] at h
    cases h
    exact ⟨rfl, fun j hj hle => hfresh j hj (Nat.le_of_succ_le hle), fun h => by omega⟩
  · rw [if_neg hpos] at h
    obtain ⟨hlt, a, s, hfill, rfl⟩ := (Table.extend_ok_iff hfresh).mp h
    obtain ⟨hle, hfit⟩ := desktops_of_ok Table.fresh_empty hfill (by omega)
    refine ⟨rfl, Table.fresh_set hfresh hlt a, fun _ => ⟨hlt, ?_, hfit⟩⟩
    have hzero : 0 + config.desktopCount.toNat ≤ maxDesktops := hle
    omega

theorem scenes_of_ok : ∀ {n : Nat} {numWidgets : Int} {r r' : SScenes × Nat},
    r.1.Fresh .zero → sceneLoop .plenty flags config n numWidgets r = .ok r' → 0 < n →
      0 < config.desktopCount → r.1.count + n ≤ maxScenes ∧ config.desktopCount ≤ maxDesktops ∧
        (0 < numWidgets → ParticlesFit flags config) := by
  intro n
  induction n with
  | zero => exact fun _ _ h => absurd h (Nat.lt_irrefl 0)
  | succ n ih =>
      intro numWidgets r r' hfresh h _ hpos
      obtain ⟨r'', hscene, hloop⟩ := exists_of_bind_eq_ok h
      obtain ⟨hcount, hfresh', hfit⟩ := scene_of_ok hfresh hscene
      obtain ⟨hlt, hdesktops, hparticles⟩ := hfit hpos
      refine ⟨?_, hdesktops, hparticles⟩
      by_cases hn : 0 < n
      · have hle := (ih hfresh' hloop hn hpos).1
        omega
      · omega

/-! ## The scene and the filter -/

theorem sceneFits_of_ok {r : Option SScenes} (hr : initScenes .plenty flags config = .ok r) :
    SceneFits flags config := by
  intro hdesktops hscenes
  have hshaders : ¬ Surroundings.plenty.shaders = false := by decide
  have hpatterns : ¬ (flags.videoWidgets && !Surroundings.plenty.patterns) = true := by
    cases flags.videoWidgets <;> decide
  unfold initScenes at hr
  rw [if_neg hshaders, if_neg hpatterns] at hr
  obtain ⟨r', hloop, _⟩ := exists_of_bind_eq_ok hr
  obtain ⟨hle, hfit⟩ := scenes_of_ok Table.fresh_empty hloop (by omega) hdesktops
  refine ⟨hfit.1, ?_, hfit.2⟩
  have hzero : 0 + (sceneCount flags config).toNat ≤ maxScenes := hle
  omega

/-- **The scenes** stay inside their tables where they fit, whatever the surroundings. -/
theorem initScenes_ok (h : SceneFits flags config) (surroundings : Surroundings) :
    ∃ r, initScenes surroundings flags config = .ok r := by
  unfold initScenes
  split
  · exact ⟨_, rfl⟩
  · split
    · exact ⟨_, rfl⟩
    · have hblank : Filled SScene.zero 0 SScenes.zero := ⟨Table.fresh_empty, Nat.le_refl 0⟩
      obtain ⟨r, hr⟩ : ∃ r, sceneLoop surroundings flags config
          (sceneCount flags config).toNat (widgetCount flags config) (.zero, 0) = .ok r := by
        by_cases hscenes : 0 < sceneCount flags config
        · refine sceneLoop_ok surroundings (fun hpos => (h hpos hscenes).1) hblank
            fun hpos _ => ⟨?_, (h hpos hscenes).2.2⟩
          have hle := (h hpos hscenes).2.1
          omega
        · rw [show (sceneCount flags config).toNat = 0 by omega]
          exact ⟨_, rfl⟩
      exact ⟨some r.1, by simp only [hr, bind, Except.bind]⟩

variable {lib : Floats F}

/-- **`init`** stays inside, whatever the surroundings, exactly where the scenes and the
filter fit. -/
theorem init_ok_iff (hsize : config.convolutionMatSize ≤ maxConvMatSize) :
    (∀ surroundings, ∃ r, init surroundings flags config lib = .ok r) ↔
      SceneFits flags config ∧ (flags.convolution = true →
        FilterFits lib config.convolutionMat config.convolutionMatSize
          config.convolutionMatDivisor) := by
  rw [← filter_inside_iff lib hsize]
  constructor
  · intro h
    obtain ⟨r, hr⟩ := h .plenty
    unfold init at hr
    cases hflag : flags.convolution with
    | false =>
        rw [hflag, if_neg Bool.false_ne_true] at hr
        exact ⟨sceneFits_of_ok hr, fun h => by cases h⟩
    | true =>
        rw [hflag, if_pos rfl] at hr
        obtain ⟨shader, hshader, hr⟩ := exists_of_bind_eq_ok hr
        cases shader with
        | none => exact absurd hshader buildConvolutionFilter_ne_none
        | some text => exact ⟨sceneFits_of_ok hr, fun _ => ⟨_, hshader⟩⟩
  · rintro ⟨hscenes, hfilter⟩ surroundings
    unfold init
    cases hflag : flags.convolution with
    | false =>
        rw [if_neg Bool.false_ne_true]
        exact initScenes_ok hscenes surroundings
    | true =>
        obtain ⟨shader, hshader⟩ := hfilter hflag
        rw [if_pos rfl]
        cases hmemory : surroundings.memory with
        | false => exact ⟨none, rfl⟩
        | true =>
            simp only [hshader, bind, Except.bind]
            cases shader with
            | none => exact ⟨none, rfl⟩
            | some text => exact initScenes_ok hscenes surroundings

/--
**Building the scene.**  For every configuration that `read_config` accepts and every
combination of flags, `init` stays inside its tables, the matrix and the buffers of the
filter, whatever the surroundings, if and only if the scenes and, where it is used, the
filter fit.
-/
theorem accepted_inside_iff {rounds : Nat} {memory : Bool}
    {start : TestConfigurationFileParams F} {contents : List Char}
    (haccepted : readConfig lib rounds memory start (some contents) =
      some (.ok (.config config))) (flags : BlitterFlags) :
    (∀ surroundings, ∃ r, init surroundings flags config lib = .ok r) ↔
      SceneFits flags config ∧ (flags.convolution = true →
        FilterFits lib config.convolutionMat config.convolutionMatSize
          config.convolutionMatDivisor) :=
  init_ok_iff (Nat.le_of_lt (size_of_accepted haccepted))

end

/-! ## Configurations -/

/-- A configuration with a desktop and a filter of one element. -/
def smallConfig : TestConfigurationFileParams Int :=
  { TestConfigurationFileParams.zero with
    desktopCount := 1
    convolutionMat := (Vector.replicate maxConvMatSize 0).set 0 1
    convolutionMatSize := 1 }

theorem accepted_inside_small :
    (∀ surroundings, ∃ r, init surroundings ⟨false, false, false, false, true⟩ smallConfig
        wholeFloats = .ok r) ↔
      SceneFits ⟨false, false, false, false, true⟩ smallConfig ∧
        (true = true → FilterFits wholeFloats smallConfig.convolutionMat 1 0) := by
  have hread : readConfig wholeFloats 3 true .zero
      (some "desktop_count:1\nconvolution_mat:\"1\"\n".toList) =
        some (.ok (.config smallConfig)) := by decide +kernel
  exact accepted_inside_iff hread _

/-- A configuration with 17 desktops and a filter of two rows and columns. -/
def squareConfig : TestConfigurationFileParams Int :=
  { TestConfigurationFileParams.zero with
    desktopCount := 17
    convolutionMat := ((((Vector.replicate maxConvMatSize 0).set 0 1).set 1 1).set 2 1).set 3 1
    convolutionMatSize := 4 }

/-- Its file is accepted, the seventeenth desktop is none of the table, and nine elements
of the matrix are read. -/
theorem squareConfig_outside :
    readConfig wholeFloats 3 true .zero
        (some "desktop_count:17\nconvolution_mat:\"1,1,1,1\"\n".toList) =
      some (.ok (.config squareConfig)) ∧
    (¬ ∀ surroundings, ∃ r, init surroundings ⟨false, false, false, false, false⟩ squareConfig
        wholeFloats = .ok r) ∧
    ¬ ∃ r, buildConvolutionFilter wholeFloats true squareConfig.convolutionMat 4 0 = .ok r := by
  have hsize : squareConfig.convolutionMatSize ≤ maxConvMatSize := by decide
  refine ⟨by decide +kernel, fun h => ?_, fun h => ?_⟩
  · have hscenes := ((init_ok_iff hsize).mp h).1 (by decide) (by decide)
    exact absurd hscenes.1 (by decide)
  · have hfilter := (filter_inside_iff wholeFloats hsize 0).mp h
    have hodd : Nat.sqrt (2 * 2) % 2 = 1 := hfilter.odd
    rw [Nat.sqrt_eq] at hodd
    cases hodd

end Blts.Gles
