import Blts.Alsa.ControlWalk

/-!
# What the stream functions return

`pcm_play_sine` and `pcm_record` keep the result of whatever they did last in one variable,
`err`, and return it from their clean-up.  A run of one of them is written down here as the
results that the device and the allocator gave in it; the functions then compute what is
returned.  Nothing is returned for results that are not those of a whole run.

`ioctl_pcm_writei` and `ioctl_pcm_writen` return what the device left in the request, not
the error of the `ioctl`, so that a write which fails without leaving a result looks like a
write of no frames.
-/

namespace Blts.Alsa

def EAGAIN : Int := 11

def ENOMEM : Int := 12

def EPIPE : Int := 32

def ESTRPIPE : Int := 86

inductive PcmAccess where
  | mmapInterleaved
  | mmapNoninterleaved
  | mmapComplex
  | rwInterleaved
  | rwNoninterleaved
  deriving DecidableEq

/-- The fields of a `pcm_device` that the stream functions look at. -/
structure StreamDevice where
  access : PcmAccess
  periodSize : Nat
  startThreshold : Nat
  linkCard : Int
  linkDevice : Int
  async : Bool
  duration : Int
  rate : Int

namespace StreamDevice

/-- The access is through mapped buffers. -/
def isMapped (hw : StreamDevice) : Bool :=
  hw.access = .mmapInterleaved || hw.access = .mmapNoninterleaved

/-- The stream is to be linked with another one. -/
def isLinked (hw : StreamDevice) : Bool := 0 ≤ hw.linkCard && 0 ≤ hw.linkDevice

end StreamDevice

/-! ## Transfers -/

/-- What a transfer came to: `-errno` if it failed, and the frames it left in the result
field (which is 0 before an `ioctl`). -/
structure XferCall where
  err : Int
  result : Int

def ioctlPcmWritei (call : XferCall) : Int := call.result

def ioctlPcmWriten (call : XferCall) : Int := call.result

def ioctlPcmReadi (call : XferCall) : Int := if call.err < 0 then call.err else call.result

def ioctlPcmReadn (call : XferCall) : Int := if call.err < 0 then call.err else call.result

/-- The mapped transfers loop until an error or the last frame. -/
def pcmMmapWritei (call : XferCall) : Int := if 0 < call.result then call.result else call.err

def pcmMmapReadi (call : XferCall) : Int := if 0 < call.result then call.result else call.err

/-- The transfer that `pcm_play_sine` uses. -/
def pcmWrite (access : PcmAccess) (call : XferCall) : Int :=
  match access with
  | .mmapInterleaved => pcmMmapWritei call
  | .mmapNoninterleaved => pcmMmapWritei call
  | .rwNoninterleaved => ioctlPcmWriten call
  | .rwInterleaved | .mmapComplex => ioctlPcmWritei call

/-- The transfer that `pcm_record` uses. -/
def pcmRead (access : PcmAccess) (call : XferCall) : Int :=
  match access with
  | .mmapInterleaved => pcmMmapReadi call
  | .mmapNoninterleaved => pcmMmapReadi call
  | .rwNoninterleaved => ioctlPcmReadn call
  | .rwInterleaved | .mmapComplex => ioctlPcmReadi call

/-- The transfer has failed. -/
def XferCall.Failed (access : PcmAccess) (call : XferCall) : Prop :=
  match access with
  | .mmapInterleaved | .mmapNoninterleaved => call.result ≤ 0 ∧ call.err < 0
  | .rwNoninterleaved | .rwInterleaved | .mmapComplex => call.err < 0

/-- What `xrun_recovery` gets from the device: the results of `ioctl_pcm_resume`, which is
called until it does not return `-EAGAIN`, and that of `ioctl_pcm_prepare`. -/
structure Recovery where
  resumes : List Int
  prepare : Int

def Recovery.resume (r : Recovery) : Option Int := r.resumes.find? (· ≠ -EAGAIN)

def xrunRecovery (err : Int) (r : Recovery) : Option Int :=
  if err = -EPIPE then
    if r.prepare < 0 then some r.prepare else some 0
  else if err = -ESTRPIPE then
    r.resume.map fun resumed =>
      if resumed < 0 then if r.prepare < 0 then r.prepare else 0 else 0
  else some err

/-- A write and, if it returns an error, its recovery. -/
structure Write where
  call : XferCall
  recovery : Recovery

/-! ## Setting up -/

/-- What comes before the first barrier. -/
structure Opening where
  setup : Int
  /-- Every buffer could be allocated. -/
  allocated : Bool
  mmapAlloc : Int
  prepare : Int

/-- The value of `err` in the clean-up, if it is reached from here.  Where a buffer could not
be allocated it is still the one that the set-up left. -/
def openStream (hw : StreamDevice) (o : Opening) : Option Int :=
  if o.setup ≠ 0 then some o.setup
  else if o.allocated = false then some o.setup
  else if hw.isMapped = true ∧ o.mmapAlloc ≠ 0 then some o.mmapAlloc
  else if o.prepare ≠ 0 then some o.prepare
  else none

/-- How the loop of a stream is left, with `pcm_link_ok`. -/
inductive LoopEnd where
  | finished (linkOk : Bool)
  | cleanup (err : Int) (linkOk : Bool)
  | returned (err : Int) (linkOk : Bool)

/-- What a stream function returns, and whether the stream was linked and unlinked. -/
structure StreamReturn where
  ret : Int
  linked : Bool
  unlinked : Bool

/-- After the loop `err` is set to 0, whatever linking and unlinking came to.  A `link_card`
is enough to unlink. -/
def LoopEnd.close (hw : StreamDevice) (unlink : Int) : LoopEnd → StreamReturn
  | .finished linkOk =>
      { ret := 0, linked := linkOk, unlinked := 0 ≤ hw.linkCard && unlink = 0 }
  | .cleanup err linkOk => { ret := err, linked := linkOk, unlinked := linkOk && unlink = 0 }
  | .returned err linkOk => { ret := err, linked := linkOk, unlinked := false }

/-- `pcm_link_ok` when the round has tried to link the stream. -/
def tryLink (hw : StreamDevice) (linkOk : Bool) (count : Nat) (link : Int) : Bool :=
  if hw.isLinked = true ∧ linkOk = false ∧ hw.startThreshold < count then link = 0 else linkOk

/-! ## Playing -/

/-- A round of `pcm_play_sine`: `link` if the stream is linked in it, `status` if it is the
first of a second. -/
structure PlayRound where
  link : Int
  sine : Int
  writes : List Write
  status : Option Int

/-- The frames of a period.  A recovered write ends it, one that is put off is tried again. -/
def writePeriod (access : PcmAccess) (cptr : Int) : List Write → Option Int
  | [] => if 0 < cptr then none else some 0
  | w :: writes =>
      if 0 < cptr then
        let err := pcmWrite access w.call
        if err = -EAGAIN then writePeriod access cptr writes
        else if err < 0 then
          (xrunRecovery err w.recovery).bind fun err =>
            if err ≠ 0 then some err else if writes.isEmpty then some 0 else none
        else writePeriod access (cptr - err) writes
      else none

def playRounds (hw : StreamDevice) (linkOk : Bool) (loopCount : Nat) :
    List PlayRound → Option LoopEnd
  | [] => some (.finished linkOk)
  | round :: rounds =>
      let linkOk := tryLink hw linkOk (loopCount % 2 ^ 64) round.link
      if round.sine ≠ 0 then some (.cleanup round.sine linkOk)
      else
        (writePeriod hw.access hw.periodSize round.writes).bind fun err =>
          if err ≠ 0 then some (.cleanup err linkOk)
          else if round.status.getD 0 ≠ 0 then some (.cleanup (round.status.getD 0) linkOk)
          else playRounds hw linkOk (loopCount + 1) rounds

/-! ## Playing from a signal handler -/

/-- A call of `pcm_async_playback`. -/
structure AsyncPeriod where
  sine : Int
  writes : List Write

/-- The writes of `pcm_async_playback`, from the frames that remain and those written. -/
def asyncWrites (remain out : Int) : List Write → Option (Int × Int)
  | [] => if 0 < remain then none else some (0, out)
  | w :: writes =>
      if 0 < remain then
        let ret := ioctlPcmWritei w.call
        if ret = -EAGAIN then asyncWrites remain out writes
        else if ret < 0 then
          (xrunRecovery ret w.recovery).bind fun ret =>
            if writes.isEmpty then some (if ret ≠ 0 then ret else -EPIPE, out) else none
        else asyncWrites (remain - ret) (out + ret) writes
      else none

/-- What `pcm_async_playback` returns, and `out_total`. -/
def pcmAsyncPlayback (hw : StreamDevice) (out : Int) (p : AsyncPeriod) : Option (Int × Int) :=
  if p.sine ≠ 0 then if p.writes.isEmpty then some (p.sine, out) else none
  else asyncWrites hw.periodSize out p.writes

/-- Periods are written until there are enough frames, or one fails. -/
def fillBuffer (hw : StreamDevice) (point ret out : Int) : List AsyncPeriod → Option (Int × Int)
  | [] => if out < point then none else some (ret, out)
  | p :: periods =>
      if out < point then
        (pcmAsyncPlayback hw out p).bind fun (ret, out) =>
          if ret ≠ 0 then some (ret, out) else fillBuffer hw point ret out periods
      else none

/-- A period is written for each signal that is pending, until one fails. -/
def servePending (hw : StreamDevice) (ret out : Int) : List AsyncPeriod → Option (Int × Int)
  | [] => some (ret, out)
  | p :: periods =>
      (pcmAsyncPlayback hw out p).bind fun (ret, out) =>
        if ret ≠ 0 then if periods.isEmpty then some (ret, out) else none
        else servePending hw ret out periods

/-- A round of `async_playback_loop`: the periods for the pending signals, those that fill
the buffer after an xrun, whether the time is up, and what `nanosleep` returns. -/
structure AsyncRound where
  pending : List AsyncPeriod
  refill : List AsyncPeriod
  timeUp : Bool
  sleep : Int
  interrupted : Bool

def asyncRounds (hw : StreamDevice) (ret out : Int) : List AsyncRound → Option (Int × Int)
  | [] => none
  | round :: rounds =>
      (servePending hw ret out round.pending).bind fun (served, out) =>
        if served ≠ 0 ∧ served ≠ -EPIPE then some (served, out)
        else
          (if served = -EPIPE then
              fillBuffer hw (out + hw.startThreshold) served out round.refill
            else if round.refill.isEmpty then some (served, out) else none).bind
            fun (ret, out) =>
              -- the buffer that needs no frames is left with the `-EPIPE` of the xrun
              if ret ≠ 0 ∧ ¬ (served = -EPIPE ∧ round.refill.isEmpty = true) then
                some (ret, out)
              else if round.timeUp then if rounds.isEmpty then some (ret, out) else none
              else if round.sleep ≠ 0 ∧ round.interrupted = false then some (round.sleep, out)
              else asyncRounds hw round.sleep out rounds

/-- The timer of a playback that is driven by one. -/
structure TimerResults where
  start : Int
  stop : Int
  close : Int

/-- What `async_playback_loop` gets from the device. -/
structure AsyncRun where
  init : Int
  buffering : List AsyncPeriod
  timer : Option TimerResults
  enable : Int
  rounds : List AsyncRound
  disable : Int

/-- The loop and its check of the frames written, without the clean-up.  Wherever the rounds
are left for an error `ret` is not 0, and the check keeps it. -/
def asyncPlayback (hw : StreamDevice) (r : AsyncRun) : Option Int :=
  if hw.access ≠ .rwInterleaved then some (-1)
  else if r.init ≠ 0 then some r.init
  else
    (fillBuffer hw hw.startThreshold 0 0 r.buffering).bind fun (ret, out) =>
      if ret ≠ 0 then some ret
      else if (r.timer.map TimerResults.start).getD 0 ≠ 0 then r.timer.map TimerResults.start
      else if r.enable ≠ 0 then some r.enable
      else
        (asyncRounds hw 0 out r.rounds).map fun (ret, out) =>
          if out.tdiv 1000 < (hw.duration * hw.rate).tdiv 1000 - 1 then
            if ret ≠ 0 then ret else -1
          else ret

/-- The first error is kept. -/
def keepError (ret err : Int) : Int := if ret ≠ 0 then ret else err

def asyncPlaybackLoop (hw : StreamDevice) (r : AsyncRun) : Option Int :=
  (asyncPlayback hw r).map fun ret =>
    keepError (keepError (keepError ret ((r.timer.map TimerResults.stop).getD 0)) r.disable)
      ((r.timer.map TimerResults.close).getD 0)

/-! ## The stream functions -/

structure PlayRun where
  opening : Opening
  rounds : List PlayRound
  /-- The state of an asynchronous playback could be allocated. -/
  stateAllocated : Bool
  async : AsyncRun
  unlink : Int

def pcmPlaySine (hw : StreamDevice) (r : PlayRun) : Option StreamReturn :=
  match openStream hw r.opening with
  | some err => some (LoopEnd.close hw r.unlink (.cleanup err false))
  | none =>
      if hw.async then
        if r.stateAllocated = false then
          some (LoopEnd.close hw r.unlink (.cleanup (-ENOMEM) false))
        else
          (asyncPlaybackLoop hw r.async).map fun err =>
            if err ≠ 0 then LoopEnd.close hw r.unlink (.cleanup err false)
            else LoopEnd.close hw r.unlink (.finished false)
      else (playRounds hw false 0 r.rounds).map (LoopEnd.close hw r.unlink)

/-- A round of `pcm_record`, with what `ioctl_pcm_prepare` returns after an overrun. -/
structure RecordRound where
  link : Int
  read : XferCall
  prepare : Int
  status : Option Int

/-- The frames that a round adds: what `ioctl_pcm_prepare` returns after an overrun. -/
def RecordRound.frames (access : PcmAccess) (round : RecordRound) : Nat :=
  if pcmRead access round.read = -EPIPE then round.prepare.toNat
  else (pcmRead access round.read).toNat

def recordRounds (hw : StreamDevice) (linkOk : Bool) (recFrames : Nat) :
    List RecordRound → LoopEnd
  | [] => .finished linkOk
  | round :: rounds =>
      let linkOk := tryLink hw linkOk (recFrames % 2 ^ 32) round.link
      let err := pcmRead hw.access round.read
      if err = -EPIPE ∧ round.prepare < 0 then .cleanup round.prepare linkOk
      else if err ≠ -EPIPE ∧ err < 0 then .returned (-1) linkOk
      else if round.status.getD 0 ≠ 0 then .cleanup (round.status.getD 0) linkOk
      else recordRounds hw linkOk (recFrames + round.frames hw.access) rounds

structure RecordRun where
  opening : Opening
  rounds : List RecordRound
  unlink : Int

def pcmRecord (hw : StreamDevice) (r : RecordRun) : StreamReturn :=
  match openStream hw r.opening with
  | some err => LoopEnd.close hw r.unlink (.cleanup err false)
  | none => LoopEnd.close hw r.unlink (recordRounds hw false 0 r.rounds)

/-! ## Tests -/

/-- A section of a test: what `check_pcm_params`, `pthread_create` and the stream function
return for it. -/
structure SectionRun where
  dir : StreamDir
  checked : Int
  created : Int
  stream : Int

/-- What the thread leaves in its entry.  A thread that waits leaves the 0 of `calloc`. -/
def SectionRun.ret (s : SectionRun) : Int := if s.dir = .none then 0 else s.stream

/-- What `alsa_play_rec_pcm` gets: the lists are the results of `setup_control_settings`. -/
structure TestRun where
  tunerNamed : Bool
  tunerOpened : Bool
  btNamed : Bool
  btConnect : Int
  defSettings : List Int
  settings : List Int
  setupTuner : Int
  /-- The array of threads could be allocated. -/
  allocated : Bool
  sections : List SectionRun
  /-- The default settings once more, in the clean-up. -/
  defSettingsAgain : List Int

/-- What `setup_ctl_settings` returns, from the results of `setup_control_settings`. -/
def settingsErr : List Int → Int
  | [] => 0
  | err :: errs => if err ≠ 0 then err else settingsErr errs

/-- The walk over a table with a null pointer. -/
theorem walkSettings_result (setup : Nat → Int) (table : List (Option AlsaControlSettings))
    (sections : List AlsaControlSettings) (index : Nat) :
    (walkSettings setup index (sections.map some ++ none :: table)).result =
      .ok (settingsErr ((List.range' index sections.length).map setup)) := by
  induction sections generalizing index with
  | nil => rfl
  | cons settings sections ih =>
      rw [List.map_cons, List.cons_append, walkSettings, List.length_cons, List.range'_succ,
        List.map_cons, settingsErr]
      by_cases hsetup : setup index ≠ 0
      · rw [if_pos hsetup, if_pos hsetup]
      · rw [if_neg hsetup, if_neg hsetup]
        exact ih (index + 1)

/-- **`setup_ctl_settings`** on the sections of a table with room. -/
theorem setupCtlSettings_result (setup : Nat → Int) {sections : List AlsaControlSettings}
    (h : sections.length < maxStreams) :
    (setupCtlSettings setup (ctlTable sections)).result =
      .ok (settingsErr ((List.range sections.length).map setup)) := by
  obtain ⟨k, htable⟩ := ctlTable_room h
  rw [htable, List.range_eq_range']
  exact walkSettings_result setup (List.replicate k none) sections 0

/-- `err` before the threads. -/
def setUpTest (r : TestRun) : Int :=
  if r.tunerNamed = true ∧ r.tunerOpened = false then -1
  else if r.btNamed = true ∧ r.btConnect ≠ 0 then r.btConnect
  else if settingsErr r.defSettings ≠ 0 then settingsErr r.defSettings
  else if settingsErr r.settings ≠ 0 then settingsErr r.settings
  else if r.tunerNamed = true ∧ r.setupTuner ≠ 0 then r.setupTuner
  else 0

def startThreads : List SectionRun → Int
  | [] => 0
  | s :: sections =>
      if s.dir ≠ .none ∧ s.checked ≠ 0 then s.checked
      else if s.created ≠ 0 then s.created
      else startThreads sections

/-- The last error of a thread, or the one there is. -/
def joinThreads (err : Int) : List SectionRun → Int
  | [] => err
  | s :: sections => joinThreads (if s.ret ≠ 0 then s.ret else err) sections

/-- `err` when the clean-up is reached. -/
def runTest (r : TestRun) : Int :=
  if setUpTest r ≠ 0 then setUpTest r
  else if r.allocated = false then setUpTest r
  else if startThreads r.sections ≠ 0 then startThreads r.sections
  else joinThreads 0 r.sections

def alsaPlayRecPcm (r : TestRun) : Int :=
  if settingsErr r.defSettingsAgain ≠ 0 then -1 else runTest r

end Blts.Alsa
