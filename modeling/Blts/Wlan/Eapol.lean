import Blts.Wlan.KeyFrame
import Mathlib.Algebra.Group.Nat.Defs

/-!
# The supplicant state machine of `wlan-core-eapol.c`

`process_eapol_frame` is a function of the loop state, of the frame and of what
the rest of the system answers while the frame is processed (`FrameEnv`): the
association data, the random nonce, and the results of the callback, of the
driver and of the send operation.  It returns its result code, the new state
and the calls it made (`EapolEvent`), in order.

The `if(ret) goto done` of the source is `Outcome.andThen`.  Allocation is
taken to succeed, and `loop_state.ctx` and its `cmd` to be set.
-/

namespace Blts.Wlan

/-- `AUTH_STATE_*`. -/
inductive AuthState where
  | preauth
  | fourWay1Rcvd
  | fourWay2Sent
  | fourWay3Rcvd
  | fourWayComplete
  | groupHsReady
  | groupHs1Rcvd
  | groupHsComplete
  | authenticated
  | deauthenticated
  deriving DecidableEq

/-- `struct eapol_supplicant_sm`, the members that the processing of frames
reads or writes.  Of a GTK slot it is the bytes that were copied there, of the
PTK the bytes that were derived. -/
structure EapolSupplicantSm where
  counter : Nat
  sNonce : Bytes
  aNonce : Bytes
  ptk : Bytes
  gtk : Nat → Bytes
  gtkPresent : Nat
  portEnabled : Bool
  portValid : Bool

/-- `struct eapol_loop_state`, without `ctx` and the callback. -/
structure LoopState where
  eapolAuthState : AuthState
  sm : EapolSupplicantSm

/-- What `loop_state.ctx` keeps for one association. -/
structure WlanCtx where
  wpaPmk : Bytes
  ourAddr : Bytes
  theirAddr : Bytes
  lastApRsnIe : Option Bytes

/-- What the system answers while one frame is processed. -/
structure FrameEnv where
  /-- `cmd->associated` when the frame is dispatched -/
  associated : Bool
  /-- `cmd->associated` when a message is processed -/
  stillAssociated : Bool
  /-- `cmd->rsn_ie` with its length -/
  rsnIe : Option Bytes
  /-- result of `rsna_nonce_generator`, and `SNonce` after it -/
  nonce : Int × Bytes
  /-- result of `monitor_send_l2_packet` -/
  sendResult : Int
  /-- result of the state change callback -/
  onChange : AuthState → Int
  /-- results of `nl80211_set_key_ccmp` for the two kinds of key -/
  setKeyPairwise : Int
  setKeyGroup : Int
  /-- result of `nl80211_set_supp_port` -/
  setSuppPort : Int

/-- The calls that leave a trace outside. -/
inductive EapolEvent where
  | msg2Sent (aNonce sNonce frame : Bytes)
  | msg4Sent (frame : Bytes)
  | groupMsg2Sent (frame : Bytes)
  | ptkInstalled (key : Bytes)
  | gtkInstalled (keyidx : Nat) (tx : Bool) (rsc key : Bytes)
  | portAuthorized
  deriving DecidableEq

/-- A pairwise or a group key is installed, or the port is authorised. -/
def EapolEvent.opensTraffic : EapolEvent → Bool
  | .ptkInstalled _ | .gtkInstalled .. | .portAuthorized => true
  | .msg2Sent .. | .msg4Sent _ | .groupMsg2Sent _ => false

/-- Result code, state and calls of a function. -/
structure Outcome where
  ret : Int
  state : LoopState
  events : List EapolEvent

/-- `-EINVAL`. -/
def errInvalid : Int := -22

namespace Outcome

/-- Return without a call. -/
def quiet (ret : Int) (s : LoopState) : Outcome :=
  { ret := ret, state := s, events := [] }

/-- Go on unless the result is not zero. -/
def andThen (o : Outcome) (next : LoopState → Outcome) : Outcome :=
  if o.ret ≠ 0 then o
  else { next o.state with events := o.events ++ (next o.state).events }

end Outcome

/-! ## State changes, keys and the port -/

/-- `eapol_auth_state_change`. -/
def eapolAuthStateChange (env : FrameEnv) (newstate : AuthState)
    (s : LoopState) : Outcome :=
  .quiet (env.onChange newstate) { s with eapolAuthState := newstate }

/-- `eapol_install_ptk`. -/
def eapolInstallPtk (env : FrameEnv) (s : LoopState) : Outcome :=
  { ret := env.setKeyPairwise
    state := s
    events := [.ptkInstalled (ptkTk s.sm.ptk)] }

/-- `eapol_set_pairwise_gtk`, with `eapol_install_gtk`. -/
def eapolSetPairwiseGtk (env : FrameEnv) (frame gtk : Bytes) (s : LoopState) :
    Outcome :=
  if gtk.length < 2 ∨ 32 < gtk.length - 2 then .quiet errInvalid s
  else
    let flags := (gtk.getD 0 0).toNat
    { ret := env.setKeyGroup
      state := s
      events := [.gtkInstalled (flags % 4) (flags.testBit 2)
        ((keyRsc frame).take 6) (gtk.drop 2)] }

/-- `eapol_set_port_auth(1)`. -/
def eapolSetPortAuth (env : FrameEnv) (s : LoopState) : Outcome :=
  { ret := if env.setSuppPort ≠ 0 then -1 else 0
    state :=
      if env.setSuppPort ≠ 0 then s
      else { s with sm := { s.sm with portEnabled := true, portValid := true } }
    events := [.portAuthorized] }

/-! ## Messages -/

/-- `WPA_PUT_BE64`. -/
def be64 (n : Nat) : Bytes :=
  (List.range 8).map fun i => UInt8.ofNat (n / 256 ^ (7 - i))

/-- Message 2 of the 4-way handshake, with the MIC still clear. -/
def fourWayMsg2 (frame : Bytes) (counter : Nat) (sNonce rsnIe : Bytes) :
    Bytes :=
  let bodyLen := sizeofKeyFrame + rsnIe.length - 4
  let packet := frame.take sizeofKeyFrame
  let packet := overwrite packet 0 [2]
  let packet := overwrite packet 2 (be16 bodyLen)
  let packet := overwrite packet 5 (be16 0x010a)
  let packet := overwrite packet 7 (be16 0)
  let packet := overwrite packet 9 (be64 counter)
  let packet := overwrite packet 17 sNonce
  let packet := overwrite packet 49 (List.replicate 16 0)
  let packet := overwrite packet 65 (List.replicate 8 0)
  let packet := overwrite packet 81 (List.replicate 16 0)
  overwrite packet 97 (be16 rsnIe.length) ++ rsnIe

/-- A message without key data, with the MIC still clear. -/
def shortKeyFrame (keyInfo counter : Nat) : Bytes :=
  [2, 3] ++ be16 (sizeofKeyFrame - 4) ++ [UInt8.ofNat eapolKeyTypeRsn] ++
    be16 keyInfo ++ be16 0 ++ be64 counter ++ List.replicate 82 0

/-- Compute the MIC of a message, send it, and say so if it was sent: the
common end of the messages.  The result is not zero when the MIC fails, and
negative when the send operation fails. -/
def sendKeyFrame (c : Crypto) (env : FrameEnv) (packet : Bytes)
    (sent : Bytes → EapolEvent) (s : LoopState)
    (next : LoopState → Outcome) : Outcome :=
  match c.wpaEapolKeyMic (ptkKck s.sm.ptk) packet with
  | none => .quiet (-1) s
  | some mic =>
      if env.sendResult < 0 then .quiet env.sendResult s
      else
        { next s with
          events := sent (overwrite packet 81 mic) :: (next s).events }

/-- `process_eapol_4way_msg_1`. -/
def processEapol4wayMsg1 (c : Crypto) (ctx : WlanCtx) (env : FrameEnv)
    (frame : Bytes) (s : LoopState) : Outcome :=
  match env.rsnIe with
  | none => .quiet (-1) s
  | some rsnIe =>
      if !env.stillAssociated then .quiet (-1) s
      else
        let sm := { s.sm with
          counter := keyReplayCounter frame
          aNonce := keyNonce frame
          sNonce := env.nonce.2 }
        if env.nonce.1 ≠ 0 then .quiet env.nonce.1 { s with sm := sm }
        else
          let ptk := wpaPmkToPtk c ctx.wpaPmk "Pairwise key expansion"
            ctx.ourAddr ctx.theirAddr sm.aNonce sm.sNonce 48
          sendKeyFrame c env (fourWayMsg2 frame sm.counter sm.sNonce rsnIe)
            (.msg2Sent sm.aNonce sm.sNonce) { s with sm := { sm with ptk := ptk } }
            (eapolAuthStateChange env .fourWay2Sent)

/-- `process_eapol_4way_msg_3`. -/
def processEapol4wayMsg3 (c : Crypto) (env : FrameEnv) (frame : Bytes)
    (ies : WpaEapolIeParse) (s : LoopState) : Outcome :=
  if !env.stillAssociated then .quiet (-1) s
  else
    let s := { s with sm := { s.sm with counter := keyReplayCounter frame } }
    sendKeyFrame c env (shortKeyFrame 0x030a s.sm.counter) .msg4Sent s fun s =>
      (eapolAuthStateChange env .fourWayComplete s).andThen fun s =>
      (if keyInfoInstall (keyInfo frame) then eapolInstallPtk env s
        else .quiet 0 s).andThen fun s =>
      (Outcome.quiet 0 (if keyInfoSecure (keyInfo frame) then
          { s with sm := { s.sm with portValid := true } }
        else s)).andThen fun s =>
      (eapolSetPairwiseGtk env frame (ies.gtk.getD []) s).andThen fun s =>
      (eapolSetPortAuth env s).andThen
      (eapolAuthStateChange env .groupHsReady)

/-- `process_eapol_group_hs_msg1`. -/
def processEapolGroupHsMsg1 (c : Crypto) (env : FrameEnv) (frame : Bytes)
    (ies : WpaEapolIeParse) (s : LoopState) : Outcome :=
  (eapolSetPairwiseGtk env frame (ies.gtk.getD []) s).andThen fun s =>
  sendKeyFrame c env (shortKeyFrame 0x0302 s.sm.counter) .groupMsg2Sent s
    fun s =>
      (eapolSetPortAuth env s).andThen fun s =>
      eapolAuthStateChange env .groupHsReady
        { s with sm := { s.sm with counter := (s.sm.counter + 1) % 2 ^ 64 } }

/-! ## Recognising messages -/

/-- What a recogniser leaves behind: its result, the state, and the decrypted
buffer with the parsed elements. -/
structure Recognised where
  result : Int
  state : LoopState
  frame : Bytes
  ies : WpaEapolIeParse

/-- Store the GTK of a checked frame. -/
def saveGtk (s : LoopState) (gtk : Bytes) : LoopState :=
  let keyid := (gtk.getD 0 0).toNat % 4
  { s with sm := { s.sm with
      gtk := fun i => if i = keyid then gtk else s.sm.gtk i
      gtkPresent := s.sm.gtkPresent ||| 2 ^ keyid } }

/-- `eapol_3_of_4_security_ok` on a decrypted frame: the state it leaves if
everything checks out. -/
def eapol3of4SecurityOk (ctx : WlanCtx) (frame : Bytes) (s : LoopState) :
    Except Fault (Option (LoopState × WpaEapolIeParse)) :=
  if keyReplayCounter frame ≤ s.sm.counter then .ok none
  else if keyNonce frame ≠ s.sm.aNonce then .ok none
  else
    match ctx.lastApRsnIe with
    | none => .error .nullDeref
    | some apRsnIe =>
        match apRsnIe[1]? with
        | none => .error .outOfBounds
        | some len =>
            let ie := wpaSupplicantParseIes (keyData frame)
            let apRsnIeLen := len.toNat + 2
            if apRsnIe.length < apRsnIeLen then .error .outOfBounds
            else if (ie.rsnIe.getD []).length ≠ apRsnIeLen then .ok none
            else if apRsnIe.take apRsnIeLen ≠ ie.rsnIe.getD [] then .ok none
            else
              match ie.gtk with
              | none => .ok none
              | some gtk =>
                  if gtk.length ≠ 18 then .ok none
                  else .ok (some (saveGtk s gtk, ie))

/-- `eapol_group_hs_security_ok` on a decrypted frame. -/
def eapolGroupHsSecurityOk (frame : Bytes) (s : LoopState) :
    Option (LoopState × WpaEapolIeParse) :=
  if keyReplayCounter frame ≤ s.sm.counter then none
  else
    let ie := wpaSupplicantParseIes (keyData frame)
    match ie.gtk with
    | none => none
    | some gtk =>
        if gtk.length ≠ 18 then none
        else
          let s := saveGtk s gtk
          some ({ s with sm :=
            { s.sm with counter := keyReplayCounter frame } }, ie)

/-- A recogniser that turns a frame down. -/
def Recognised.no (result : Int) (s : LoopState) (frame : Bytes) : Recognised :=
  { result := result
    state := s
    frame := frame
    ies := { rsnIe := none, gtk := none } }

/-- `is_4way_msg_3`. -/
def is4wayMsg3 (c : Crypto) (ctx : WlanCtx) (f : RxFrame) (s : LoopState) :
    Except Fault Recognised := do
  if descType f.buf ≠ eapolKeyTypeRsn then
    return .no 0 s f.buf
  if !keyInfoMsg3 (keyInfo f.buf) then
    return .no 0 s f.buf
  if f.len < sizeofKeyFrame + keyDataLen f.buf then
    return .no 0 s f.buf
  if keyDataLen f.buf < sizeofRsnIeHdr then
    return .no 0 s f.buf
  if !eapolKeyFrameMicOk c s.sm.ptk f then
    return .no 0 s f.buf
  match ← wpaDecryptEapolKeyData c s.sm.ptk f.buf with
  | none => return .no 0 s f.buf
  | some frame =>
      match ← eapol3of4SecurityOk ctx frame s with
      | none => return .no (-1) s frame
      | some (s, ies) =>
          return { result := 1, state := s, frame := frame, ies := ies }

/-- `is_group_hs_msg_1`. -/
def isGroupHsMsg1 (c : Crypto) (f : RxFrame) (s : LoopState) :
    Except Fault Recognised := do
  if descType f.buf ≠ eapolKeyTypeRsn then
    return .no 0 s f.buf
  if !keyInfoGroupMsg1 (keyInfo f.buf) then
    return .no 0 s f.buf
  if !isBitfieldZero (keyNonce f.buf) then
    return .no 0 s f.buf
  if !isBitfieldZero (eapolKeyIv f.buf) then
    return .no 0 s f.buf
  if !eapolKeyFrameMicOk c s.sm.ptk f then
    return .no 0 s f.buf
  match ← wpaDecryptEapolKeyData c s.sm.ptk f.buf with
  | none => return .no 0 s f.buf
  | some frame =>
      match eapolGroupHsSecurityOk frame s with
      | none => return .no (-1) s frame
      | some (s, ies) =>
          return { result := 1, state := s, frame := frame, ies := ies }

/-! ## Dispatch -/

/-- Message 1, in either of the states that take one. -/
def receive4wayMsg1 (c : Crypto) (ctx : WlanCtx) (env : FrameEnv) (f : RxFrame)
    (s : LoopState) : Outcome :=
  (eapolAuthStateChange env .fourWay1Rcvd s).andThen
    (processEapol4wayMsg1 c ctx env f.buf)

/-- `process_eapol_frame`. -/
def processEapolFrame (c : Crypto) (ctx : WlanCtx) (env : FrameEnv)
    (f : RxFrame) (s : LoopState) : Except Fault Outcome :=
  if f.len < sizeofKeyFrame then .ok (.quiet errInvalid s)
  else if !env.associated then .ok (.quiet 0 s)
  else
    match s.eapolAuthState with
    | .preauth =>
        if !is4wayMsg1 f.buf then .ok (.quiet 0 s)
        else .ok (receive4wayMsg1 c ctx env f s)
    | .fourWay1Rcvd => .ok (.quiet 0 s)
    | .fourWay2Sent => do
        let r ← is4wayMsg3 c ctx f s
        if r.result = 0 then return .quiet 0 r.state
        else if r.result < 0 then return .quiet r.result r.state
        else
          return (eapolAuthStateChange env .fourWay3Rcvd r.state).andThen
            (processEapol4wayMsg3 c env r.frame r.ies)
    | .fourWay3Rcvd => .ok (.quiet 0 s)
    | .fourWayComplete => .ok (.quiet 0 s)
    | .groupHsReady =>
        if is4wayMsg1 f.buf then .ok (receive4wayMsg1 c ctx env f s)
        else do
          let r ← isGroupHsMsg1 c f s
          if r.result = 0 then return .quiet 0 r.state
          else if r.result < 0 then return .quiet r.result r.state
          else
            return (eapolAuthStateChange env .groupHs1Rcvd r.state).andThen
              (processEapolGroupHsMsg1 c env r.frame r.ies)
    | .groupHs1Rcvd | .groupHsComplete | .authenticated | .deauthenticated =>
        .ok (.quiet (-1) s)

/-- A run of frames, with the calls made so far. -/
def receiveFrames (c : Crypto) (ctx : WlanCtx) (s : LoopState) :
    List (FrameEnv × RxFrame) → Except Fault (LoopState × List EapolEvent)
  | [] => .ok (s, [])
  | (env, f) :: frames => do
      let o ← processEapolFrame c ctx env f s
      let (s, events) ← receiveFrames c ctx o.state frames
      return (s, o.events ++ events)

end Blts.Wlan
