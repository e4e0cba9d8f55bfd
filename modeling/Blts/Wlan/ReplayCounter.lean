import Blts.Lib.Run
import Blts.Wlan.EapolRuns

/-!
# The replay counter over a run of frames

A frame is taken as a message of a handshake when the recogniser of the state
says so.  Message 3 and group message 1 are authenticated, and are taken only
if their counter is beyond the stored one; message 1 is not, and stores whatever
counter it carries.  After a group message the stored counter is one more than
the one received.
-/

namespace Blts.Wlan

open Blts.Lib

/-- The messages of the access point. -/
inductive Message where
  | fourWay1
  | fourWay3
  | group1
  deriving DecidableEq

/-- The messages that carry a MIC. -/
def Message.authenticated : Message → Bool
  | .fourWay1 => false
  | .fourWay3 | .group1 => true

/-- A message that has been taken, with its counter. -/
structure Accepted where
  message : Message
  counter : Nat
  deriving DecidableEq

/-- What the machine takes a frame for. -/
def takenAs (c : Crypto) (ctx : WlanCtx) (env : FrameEnv) (f : RxFrame)
    (s : LoopState) : Option Message :=
  if f.len < sizeofKeyFrame then none
  else if !env.associated then none
  else
    match s.eapolAuthState with
    | .preauth => if is4wayMsg1 f.buf then some .fourWay1 else none
    | .fourWay2Sent =>
        if (is4wayMsg3 c ctx f s).toOption.any fun r => 0 < r.result then
          some .fourWay3
        else none
    | .groupHsReady =>
        if is4wayMsg1 f.buf then some .fourWay1
        else if (isGroupHsMsg1 c f s).toOption.any fun r => 0 < r.result then
          some .group1
        else none
    | _ => none

/-- Runs of frames, with the messages taken so far. -/
def eapolFrames (c : Crypto) (ctx : WlanCtx) :
    System (LoopState × List Accepted) (FrameEnv × RxFrame) where
  step s e :=
    (processEapolFrame c ctx e.1 e.2 s.1).toOption.map fun o =>
      (o.state, s.2 ++ (takenAs c ctx e.1 e.2 s.1).toList.map fun m =>
        ⟨m, keyReplayCounter e.2.buf⟩)

/-! ## The frames that are taken -/

section

variable {c : Crypto} {ctx : WlanCtx} {env : FrameEnv} {f : RxFrame} {s : LoopState}
  {r : Recognised}

/-- A message 3 has been decrypted, and its security checks have been passed. -/
theorem is4wayMsg3_taken (h : is4wayMsg3 c ctx f s = .ok r) (hpos : 0 < r.result) :
    wpaDecryptEapolKeyData c s.sm.ptk f.buf = .ok (some r.frame) ∧
      eapol3of4SecurityOk ctx r.frame s = .ok (some (r.state, r.ies)) := by
  have hno (result : Int) (hle : result ≤ 0) (frame : Bytes) :
      (Except.ok (.no result s frame) : Except Fault Recognised) ≠ .ok r := by
    intro heq
    rw [← Except.ok.inj heq] at hpos
    exact absurd hpos (Int.not_lt.mpr hle)
  simp only [is4wayMsg3, bind, Except.bind, pure, Except.pure] at h
  split at h
  next => exact absurd h (hno 0 (Int.le_refl 0) f.buf)
  next =>
  split at h
  next => exact absurd h (hno 0 (Int.le_refl 0) f.buf)
  next =>
  split at h
  next => exact absurd h (hno 0 (Int.le_refl 0) f.buf)
  next =>
  split at h
  next => exact absurd h (hno 0 (Int.le_refl 0) f.buf)
  next =>
  split at h
  next => exact absurd h (hno 0 (Int.le_refl 0) f.buf)
  next =>
  split at h
  next => cases h
  next decrypted hdec =>
  split at h
  next => exact absurd h (hno 0 (Int.le_refl 0) f.buf)
  next frame =>
  split at h
  next => cases h
  next checked hok =>
  split at h
  next => exact absurd h (hno (-1) (by decide) frame)
  next s' ies =>
    cases h
    exact ⟨hdec, hok⟩

/-- A group message has been decrypted, and its security checks have been passed. -/
theorem isGroupHsMsg1_taken (h : isGroupHsMsg1 c f s = .ok r) (hpos : 0 < r.result) :
    wpaDecryptEapolKeyData c s.sm.ptk f.buf = .ok (some r.frame) ∧
      eapolGroupHsSecurityOk r.frame s = some (r.state, r.ies) := by
  have hno (result : Int) (hle : result ≤ 0) (frame : Bytes) :
      (Except.ok (.no result s frame) : Except Fault Recognised) ≠ .ok r := by
    intro heq
    rw [← Except.ok.inj heq] at hpos
    exact absurd hpos (Int.not_lt.mpr hle)
  simp only [isGroupHsMsg1, bind, Except.bind, pure, Except.pure] at h
  split at h
  next => exact absurd h (hno 0 (Int.le_refl 0) f.buf)
  next =>
  split at h
  next => exact absurd h (hno 0 (Int.le_refl 0) f.buf)
  next =>
  split at h
  next => exact absurd h (hno 0 (Int.le_refl 0) f.buf)
  next =>
  split at h
  next => exact absurd h (hno 0 (Int.le_refl 0) f.buf)
  next =>
  split at h
  next => exact absurd h (hno 0 (Int.le_refl 0) f.buf)
  next =>
  split at h
  next => cases h
  next decrypted hdec =>
  split at h
  next => exact absurd h (hno 0 (Int.le_refl 0) f.buf)
  next frame =>
  split at h
  next => exact absurd h (hno (-1) (by decide) frame)
  next s' ies hok =>
    cases h
    exact ⟨hdec, hok⟩

/-- The security checks of group message 1. -/
theorem eapolGroupHsSecurityOk_some {frame : Bytes} {s' : LoopState}
    {ies : WpaEapolIeParse} (h : eapolGroupHsSecurityOk frame s = some (s', ies)) :
    s.sm.counter < keyReplayCounter frame ∧ ∃ gtk, ies.gtk = some gtk ∧ gtk.length = 18 ∧
      s' = { saveGtk s gtk with
        sm := { (saveGtk s gtk).sm with counter := keyReplayCounter frame } } := by
  unfold eapolGroupHsSecurityOk at h
  split at h
  next => cases h
  next hcounter =>
  simp only at h
  split at h
  next => cases h
  next gtk hgtk =>
  split at h
  next => cases h
  next hlength =>
    cases h
    exact ⟨Nat.not_le.mp hcounter, gtk, hgtk, not_not.mp hlength, rfl⟩

/-- The checks of message 3 keep the stored counter. -/
theorem eapol3of4SecurityOk_state {frame : Bytes} {s' : LoopState}
    {ies : WpaEapolIeParse} (h : eapol3of4SecurityOk ctx frame s = .ok (some (s', ies))) :
    ∃ gtk, s' = saveGtk s gtk := by
  unfold eapol3of4SecurityOk at h
  split at h
  next => cases h
  next =>
  split at h
  next => cases h
  next =>
  split at h
  next => cases h
  next =>
  split at h
  next => cases h
  next =>
  simp only at h
  split at h
  next => cases h
  next =>
  split at h
  next => cases h
  next =>
  split at h
  next => cases h
  next =>
  split at h
  next => cases h
  next gtk _ =>
  split at h
  next => cases h
  next =>
    cases h
    exact ⟨gtk, rfl⟩

/-- What a frame does that is taken for a message. -/
inductive Takes (c : Crypto) (ctx : WlanCtx) (env : FrameEnv) (f : RxFrame)
    (s : LoopState) : Option Message → Outcome → Prop
  | none (ret : Int) : Takes c ctx env f s none (.quiet ret s)
  | fourWay1 (hstate : s.eapolAuthState = .preauth ∨ s.eapolAuthState = .groupHsReady) :
      Takes c ctx env f s (some .fourWay1) (receive4wayMsg1 c ctx env f s)
  | fourWay3 (gtk frame : Bytes) (ies : WpaEapolIeParse)
      (hstate : s.eapolAuthState = .fourWay2Sent)
      (hcounter : s.sm.counter < keyReplayCounter f.buf)
      (hframe : keyReplayCounter frame = keyReplayCounter f.buf) :
      Takes c ctx env f s (some .fourWay3)
        ((eapolAuthStateChange env .fourWay3Rcvd (saveGtk s gtk)).andThen
          (processEapol4wayMsg3 c env frame ies))
  | group1 (gtk frame : Bytes) (ies : WpaEapolIeParse)
      (hstate : s.eapolAuthState = .groupHsReady)
      (hcounter : s.sm.counter < keyReplayCounter f.buf)
      (hgtk : ies.gtk = some gtk) (hlength : gtk.length = 18) :
      Takes c ctx env f s (some .group1)
        ((eapolAuthStateChange env .groupHs1Rcvd
          { saveGtk s gtk with
            sm := { (saveGtk s gtk).sm with counter := keyReplayCounter f.buf } }).andThen
          (processEapolGroupHsMsg1 c env frame ies))

/-- The key data has been decrypted, the counter is the one that was received. -/
theorem keyReplayCounter_decrypted {ptk buf frame : Bytes}
    (h : wpaDecryptEapolKeyData c ptk buf = .ok (some frame)) :
    keyReplayCounter frame = keyReplayCounter buf := by
  rw [keyReplayCounter, field_decrypted h (by decide), keyReplayCounter]

/-- A frame that has been looked at: it is taken if the result is positive, and it leaves
the state otherwise. -/
theorem takes_recognised {recognised : Except Fault Recognised} {m : Message}
    {act : Recognised → Outcome} {o : Outcome}
    (hsame : ∀ {r}, recognised = .ok r → r.result ≤ 0 → r.state = s)
    (hact : ∀ {r}, recognised = .ok r → 0 < r.result →
      Takes c ctx env f s (some m) (act r))
    (h : (do
      let r ← recognised
      if r.result = 0 then return Outcome.quiet 0 r.state
      else if r.result < 0 then return Outcome.quiet r.result r.state
      else return act r) = .ok o) :
    Takes c ctx env f s
      (if recognised.toOption.any fun r => 0 < r.result then some m else none) o := by
  obtain ⟨r, hr, h⟩ := exists_of_bind_eq_ok h
  have hany : (recognised.toOption.any fun r => 0 < r.result) = decide (0 < r.result) := by
    rw [hr]
    rfl
  by_cases hpos : 0 < r.result
  · rw [if_neg (by omega), if_neg (by omega)] at h
    rw [if_pos (hany.trans (decide_eq_true hpos))]
    cases h
    exact hact hr hpos
  · rw [if_neg (by rw [hany]; simpa using hpos)]
    rw [hsame hr (by omega)] at h
    by_cases hzero : r.result = 0
    · rw [if_pos hzero] at h
      cases h
      exact .none 0
    · rw [if_neg hzero, if_pos (by omega)] at h
      cases h
      exact .none r.result

/-- A message 3 that has been looked at. -/
theorem takes_fourWay3 (hstate : s.eapolAuthState = .fourWay2Sent)
    (h : is4wayMsg3 c ctx f s = .ok r) (hpos : 0 < r.result) :
    Takes c ctx env f s (some .fourWay3)
      ((eapolAuthStateChange env .fourWay3Rcvd r.state).andThen
        (processEapol4wayMsg3 c env r.frame r.ies)) := by
  obtain ⟨hdec, hok⟩ := is4wayMsg3_taken h hpos
  obtain ⟨gtk, hsaved⟩ := eapol3of4SecurityOk_state hok
  have hframe := keyReplayCounter_decrypted hdec
  rw [hsaved]
  refine .fourWay3 gtk r.frame r.ies hstate ?_ hframe
  rw [← hframe]
  exact (eapol3of4SecurityOk_some hok).2.1

/-- A group message 1 that has been looked at. -/
theorem takes_group1 (hstate : s.eapolAuthState = .groupHsReady)
    (h : isGroupHsMsg1 c f s = .ok r) (hpos : 0 < r.result) :
    Takes c ctx env f s (some .group1)
      ((eapolAuthStateChange env .groupHs1Rcvd r.state).andThen
        (processEapolGroupHsMsg1 c env r.frame r.ies)) := by
  obtain ⟨hdec, hok⟩ := isGroupHsMsg1_taken h hpos
  obtain ⟨hcounter, gtk, hgtk, hlength, hsaved⟩ := eapolGroupHsSecurityOk_some hok
  rw [keyReplayCounter_decrypted hdec] at hcounter hsaved
  rw [hsaved]
  exact .group1 gtk r.frame r.ies hstate hcounter hgtk hlength

theorem takes_takenAs {o : Outcome} (h : processEapolFrame c ctx env f s = .ok o) :
    Takes c ctx env f s (takenAs c ctx env f s) o := by
  have hquiet {ret : Int} (ho : (Except.ok (.quiet ret s) : Except Fault Outcome) = .ok o) :
      Takes c ctx env f s none o := by
    cases ho
    exact .none ret
  unfold processEapolFrame at h
  unfold takenAs
  by_cases hshort : f.len < sizeofKeyFrame
  · rw [if_pos hshort] at h ⊢
    exact hquiet h
  · rw [if_neg hshort] at h ⊢
    by_cases hassociated : (!env.associated) = true
    · rw [if_pos hassociated] at h ⊢
      exact hquiet h
    · rw [if_neg hassociated] at h ⊢
      cases hstate : s.eapolAuthState with
      | preauth =>
          simp only [hstate] at h ⊢
          by_cases hmsg1 : is4wayMsg1 f.buf = true
          · rw [if_neg (by simp [hmsg1])] at h
            rw [if_pos hmsg1]
            cases h
            exact .fourWay1 (.inl hstate)
          · rw [if_pos (by simpa using hmsg1)] at h
            rw [if_neg hmsg1]
            exact hquiet h
      | fourWay2Sent =>
          simp only [hstate] at h ⊢
          exact takes_recognised
            (fun hr hle => (is4wayMsg3_spec hr).elim And.right fun hone => absurd hle (by omega))
            (takes_fourWay3 hstate) h
      | groupHsReady =>
          simp only [hstate] at h ⊢
          by_cases hmsg1 : is4wayMsg1 f.buf = true
          · rw [if_pos hmsg1] at h ⊢
            cases h
            exact .fourWay1 (.inr hstate)
          · rw [if_neg hmsg1] at h ⊢
            exact takes_recognised
              (fun hr hle => (isGroupHsMsg1_spec hr).elim And.right
                fun hone => absurd hle (by omega))
              (takes_group1 hstate) h
      | fourWay1Rcvd => simp only [hstate] at h ⊢; exact hquiet h
      | fourWay3Rcvd => simp only [hstate] at h ⊢; exact hquiet h
      | fourWayComplete => simp only [hstate] at h ⊢; exact hquiet h
      | groupHs1Rcvd => simp only [hstate] at h ⊢; exact hquiet h
      | groupHsComplete => simp only [hstate] at h ⊢; exact hquiet h
      | authenticated => simp only [hstate] at h ⊢; exact hquiet h
      | deauthenticated => simp only [hstate] at h ⊢; exact hquiet h

/-! ## What a message does to the counter -/

/-- Message 1 stores its counter. -/
def SavesCounter (env : FrameEnv) : Prop :=
  env.onChange .fourWay1Rcvd = 0 ∧ env.rsnIe.isSome = true ∧ env.stillAssociated = true

/-- The key of group message 1 with this counter is installed, message 2 is sent, and
the port is authorised. -/
def AnswersGroup1 (c : Crypto) (env : FrameEnv) (ptk : Bytes) (counter : Nat) : Prop :=
  env.setKeyGroup = 0 ∧
    (c.wpaEapolKeyMic (ptkKck ptk) (shortKeyFrame 0x0302 counter)).isSome = true ∧
    0 ≤ env.sendResult ∧ env.setSuppPort = 0

/-- Group message 1 with this counter is answered, and the counter goes up. -/
def CountsUp (c : Crypto) (env : FrameEnv) (ptk : Bytes) (counter : Nat) : Prop :=
  env.onChange .groupHs1Rcvd = 0 ∧ AnswersGroup1 c env ptk counter

theorem Outcome.andThen_of_ne {o : Outcome} {next : LoopState → Outcome} (h : o.ret ≠ 0) :
    o.andThen next = o :=
  if_pos h

theorem Outcome.andThen_of_eq {o : Outcome} {next : LoopState → Outcome} (h : o.ret = 0) :
    (o.andThen next).state = (next o.state).state ∧
      (o.andThen next).ret = (next o.state).ret := by
  rw [Outcome.andThen, if_neg (not_not_intro h)]
  exact ⟨rfl, rfl⟩

/-- The machine is in this state, with this counter stored. -/
structure At (a : AuthState) (k : Nat) (s : LoopState) : Prop where
  state : s.eapolAuthState = a
  counter : s.sm.counter = k

theorem receive4wayMsg1_counter (c : Crypto) (ctx : WlanCtx) (env : FrameEnv) (f : RxFrame)
    (s : LoopState) :
    (SavesCounter env →
      At .fourWay1Rcvd (keyReplayCounter f.buf) (receive4wayMsg1 c ctx env f s).state ∨
      At .fourWay2Sent (keyReplayCounter f.buf) (receive4wayMsg1 c ctx env f s).state) ∧
    (¬ SavesCounter env →
      At .fourWay1Rcvd s.sm.counter (receive4wayMsg1 c ctx env f s).state) := by
  unfold receive4wayMsg1
  by_cases hchange : env.onChange .fourWay1Rcvd = 0
  · have hret : (eapolAuthStateChange env .fourWay1Rcvd s).ret = 0 := hchange
    rw [(Outcome.andThen_of_eq hret).1]
    unfold processEapol4wayMsg1
    cases hrsn : env.rsnIe with
    | none =>
        refine ⟨fun hsaves => ?_, fun _ => ⟨rfl, rfl⟩⟩
        have hsome := hsaves.2.1
        rw [hrsn] at hsome
        cases hsome
    | some rsnIe =>
        by_cases hstill : env.stillAssociated = true
        · have hsaves : SavesCounter env := ⟨hchange, by rw [hrsn]; rfl, hstill⟩
          refine ⟨fun _ => ?_, fun hnot => absurd hsaves hnot⟩
          simp only [hstill, Bool.not_true, Bool.false_eq_true, if_false]
          by_cases hnonce : env.nonce.1 = 0
          · rw [if_neg (not_not_intro hnonce)]
            unfold sendKeyFrame
            split
            next => exact .inl ⟨rfl, rfl⟩
            next =>
              split
              next => exact .inl ⟨rfl, rfl⟩
              next => exact .inr ⟨rfl, rfl⟩
          · rw [if_pos hnonce]
            exact .inl ⟨rfl, rfl⟩
        · refine ⟨fun hsaves => absurd hsaves.2.2 hstill, fun _ => ?_⟩
          simp only [hstill, Bool.not_false, if_true]
          exact ⟨rfl, rfl⟩
  · have hret : (eapolAuthStateChange env .fourWay1Rcvd s).ret ≠ 0 := hchange
    rw [Outcome.andThen_of_ne hret]
    exact ⟨fun hsaves => absurd hsaves.1 hchange, fun _ => ⟨rfl, rfl⟩⟩

/-- A step between two state changes stays where the machine is. -/
theorem Outcome.andThen_at (P : LoopState → Prop) {o : Outcome} {next : LoopState → Outcome}
    (hstop : P o.state) (hnext : P (next o.state).state) : P (o.andThen next).state := by
  by_cases hret : o.ret = 0
  · rw [(Outcome.andThen_of_eq hret).1]
    exact hnext
  · rw [Outcome.andThen_of_ne hret]
    exact hstop

/-- A message that is sent, and one that is not. -/
theorem sendKeyFrame_of_sent {packet : Bytes} {sent : Bytes → EapolEvent}
    {next : LoopState → Outcome}
    (hmic : (c.wpaEapolKeyMic (ptkKck s.sm.ptk) packet).isSome = true)
    (hsend : 0 ≤ env.sendResult) :
    (sendKeyFrame c env packet sent s next).state = (next s).state ∧
      (sendKeyFrame c env packet sent s next).ret = (next s).ret := by
  unfold sendKeyFrame
  cases hm : c.wpaEapolKeyMic (ptkKck s.sm.ptk) packet with
  | none =>
      rw [hm] at hmic
      cases hmic
  | some mic =>
      simp only [if_neg (Int.not_lt.mpr hsend)]
      exact ⟨trivial, trivial⟩

theorem sendKeyFrame_of_unsent {packet : Bytes} {sent : Bytes → EapolEvent}
    {next : LoopState → Outcome}
    (h : ¬ ((c.wpaEapolKeyMic (ptkKck s.sm.ptk) packet).isSome = true ∧
      0 ≤ env.sendResult)) :
    (sendKeyFrame c env packet sent s next).state = s ∧
      (sendKeyFrame c env packet sent s next).ret < 0 := by
  unfold sendKeyFrame
  cases hm : c.wpaEapolKeyMic (ptkKck s.sm.ptk) packet with
  | none => exact ⟨rfl, Int.negSucc_lt_zero 0⟩
  | some mic =>
      have hsend : env.sendResult < 0 := by
        by_contra hnot
        exact h ⟨by rw [hm]; rfl, Int.not_lt.mp hnot⟩
      simp only [if_pos hsend]
      exact ⟨rfl, hsend⟩

theorem sendKeyFrame_at (P : LoopState → Prop) {packet : Bytes} {sent : Bytes → EapolEvent}
    {next : LoopState → Outcome} (hstop : P s) (hnext : P (next s).state) :
    P (sendKeyFrame c env packet sent s next).state := by
  by_cases h : (c.wpaEapolKeyMic (ptkKck s.sm.ptk) packet).isSome = true ∧
      0 ≤ env.sendResult
  · rw [(sendKeyFrame_of_sent h.1 h.2).1]
    exact hnext
  · rw [(sendKeyFrame_of_unsent h).1]
    exact hstop

theorem At.setPairwiseGtk {a : AuthState} {k : Nat} (h : At a k s) (env : FrameEnv)
    (frame gtk : Bytes) : At a k (eapolSetPairwiseGtk env frame gtk s).state := by
  unfold eapolSetPairwiseGtk
  split <;> exact h

theorem At.setPortAuth {a : AuthState} {k : Nat} (h : At a k s) (env : FrameEnv) :
    At a k (eapolSetPortAuth env s).state := by
  unfold eapolSetPortAuth
  dsimp only
  split
  · exact h
  · exact ⟨h.state, h.counter⟩

/-- Message 3 ends in the state that is ready for group messages, with its counter
stored, or in a state that takes no message any more. -/
theorem receive4wayMsg3_counter (c : Crypto) (env : FrameEnv) (frame : Bytes)
    (ies : WpaEapolIeParse) (s : LoopState) :
    let o := (eapolAuthStateChange env .fourWay3Rcvd s).andThen
      (processEapol4wayMsg3 c env frame ies)
    At .fourWay3Rcvd s.sm.counter o.state ∨
      At .fourWay3Rcvd (keyReplayCounter frame) o.state ∨
      At .fourWayComplete (keyReplayCounter frame) o.state ∨
      At .groupHsReady (keyReplayCounter frame) o.state := by
  intro o
  let P (s' : LoopState) : Prop := At .fourWay3Rcvd s.sm.counter s' ∨
    At .fourWay3Rcvd (keyReplayCounter frame) s' ∨
    At .fourWayComplete (keyReplayCounter frame) s' ∨
    At .groupHsReady (keyReplayCounter frame) s'
  have hcomplete {s' : LoopState} (h : At .fourWayComplete (keyReplayCounter frame) s') :
      P s' := .inr (.inr (.inl h))
  refine Outcome.andThen_at P (.inl ⟨rfl, rfl⟩) ?_
  unfold processEapol4wayMsg3
  by_cases hstill : env.stillAssociated = true
  · rw [if_neg (by simp [hstill])]
    refine sendKeyFrame_at P (.inr (.inl ⟨rfl, rfl⟩)) ?_
    refine Outcome.andThen_at P (hcomplete ⟨rfl, rfl⟩) ?_
    -- The keys and the port are set up in `fourWayComplete`.
    have hptk {s' : LoopState} : (if keyInfoInstall (keyInfo frame) then
        eapolInstallPtk env s' else .quiet 0 s').state = s' := by
      split <;> rfl
    refine Outcome.andThen_at P (by rw [hptk]; exact hcomplete ⟨rfl, rfl⟩) ?_
    rw [hptk]
    have hvalid (s' : LoopState) (h : At .fourWayComplete (keyReplayCounter frame) s') :
        At .fourWayComplete (keyReplayCounter frame)
          (if keyInfoSecure (keyInfo frame) then
            { s' with sm := { s'.sm with portValid := true } }
          else s') := by
      split
      · exact ⟨h.state, h.counter⟩
      · exact h
    have hsecure := hvalid (eapolAuthStateChange env .fourWayComplete
      { (eapolAuthStateChange env .fourWay3Rcvd s).state with
        sm := { (eapolAuthStateChange env .fourWay3Rcvd s).state.sm with
          counter := keyReplayCounter frame } }).state ⟨rfl, rfl⟩
    refine Outcome.andThen_at P (hcomplete hsecure) ?_
    have hgtk := hsecure.setPairwiseGtk env frame (ies.gtk.getD [])
    refine Outcome.andThen_at P (hcomplete hgtk) ?_
    have hport := hgtk.setPortAuth env
    exact Outcome.andThen_at P (hcomplete hport) (.inr (.inr (.inr ⟨rfl, hport.counter⟩)))
  · rw [if_pos (by simp [hstill])]
    exact .inl ⟨rfl, rfl⟩

/-- The end of group message 1: the port is authorised, and the counter goes up. -/
theorem setPortAuth_counter (env : FrameEnv) (s : LoopState) :
    let o := (eapolSetPortAuth env s).andThen fun s => eapolAuthStateChange env .groupHsReady
      { s with sm := { s.sm with counter := (s.sm.counter + 1) % 2 ^ 64 } }
    (env.setSuppPort = 0 → At .groupHsReady ((s.sm.counter + 1) % 2 ^ 64) o.state ∧
      o.ret = env.onChange .groupHsReady) ∧
    (env.setSuppPort ≠ 0 → o.state = s ∧ o.ret < 0) := by
  intro o
  constructor
  · intro hport
    have hret : (eapolSetPortAuth env s).ret = 0 := if_neg (not_not_intro hport)
    obtain ⟨hstate, hresult⟩ := Outcome.andThen_of_eq (o := eapolSetPortAuth env s) hret
    have hcounter : (eapolSetPortAuth env s).state.sm.counter = s.sm.counter :=
      (At.setPortAuth ⟨rfl, rfl⟩ env).counter
    rw [hstate, hresult]
    exact ⟨⟨rfl, by rw [← hcounter]; rfl⟩, rfl⟩
  · intro hport
    have hret : (eapolSetPortAuth env s).ret = -1 := if_pos hport
    have ho : o = eapolSetPortAuth env s := Outcome.andThen_of_ne (by rw [hret]; decide)
    rw [ho, hret]
    exact ⟨if_pos hport, by decide⟩

theorem processEapolGroupHsMsg1_counter (c : Crypto) (env : FrameEnv) (frame : Bytes)
    {ies : WpaEapolIeParse} {gtk : Bytes} (hgtk : ies.gtk = some gtk)
    (hlength : gtk.length = 18) (s : LoopState) :
    let o := processEapolGroupHsMsg1 c env frame ies s
    (AnswersGroup1 c env s.sm.ptk s.sm.counter →
      At .groupHsReady ((s.sm.counter + 1) % 2 ^ 64) o.state ∧
        o.ret = env.onChange .groupHsReady) ∧
    (¬ AnswersGroup1 c env s.sm.ptk s.sm.counter →
      o.state = s ∧ (0 ≤ o.ret ↔ 0 < env.setKeyGroup)) := by
  intro o
  have hgroup : eapolSetPairwiseGtk env frame (ies.gtk.getD []) s =
      { ret := env.setKeyGroup
        state := s
        events := [.gtkInstalled ((gtk.getD 0 0).toNat % 4) ((gtk.getD 0 0).toNat.testBit 2)
          ((keyRsc frame).take 6) (gtk.drop 2)] } := by
    rw [hgtk, Option.getD_some, eapolSetPairwiseGtk, if_neg (by omega)]
  have ho : o = (eapolSetPairwiseGtk env frame (ies.gtk.getD []) s).andThen fun s =>
      sendKeyFrame c env (shortKeyFrame 0x0302 s.sm.counter) .groupMsg2Sent s fun s =>
        (eapolSetPortAuth env s).andThen fun s => eapolAuthStateChange env .groupHsReady
          { s with sm := { s.sm with counter := (s.sm.counter + 1) % 2 ^ 64 } } := rfl
  by_cases hkey : env.setKeyGroup = 0
  · obtain ⟨hstate, hresult⟩ := Outcome.andThen_of_eq
      (o := eapolSetPairwiseGtk env frame (ies.gtk.getD []) s) (by rw [hgroup]; exact hkey)
    rw [ho, hstate, hresult, hgroup]
    by_cases hsent : (c.wpaEapolKeyMic (ptkKck s.sm.ptk)
        (shortKeyFrame 0x0302 s.sm.counter)).isSome = true ∧ 0 ≤ env.sendResult
    · rw [(sendKeyFrame_of_sent hsent.1 hsent.2).1, (sendKeyFrame_of_sent hsent.1 hsent.2).2]
      obtain ⟨hup, hstop⟩ := setPortAuth_counter env s
      refine ⟨fun hanswers => hup hanswers.2.2.2, fun hnot => ?_⟩
      obtain ⟨hstate, hneg⟩ := hstop fun hport => hnot ⟨hkey, hsent.1, hsent.2, hport⟩
      exact ⟨hstate, by omega⟩
    · refine ⟨fun hanswers => absurd ⟨hanswers.2.1, hanswers.2.2.1⟩ hsent, fun _ => ?_⟩
      rw [(sendKeyFrame_of_unsent hsent).1]
      exact ⟨rfl, iff_of_false (Int.not_le.mpr (sendKeyFrame_of_unsent hsent).2) (by omega)⟩
  · have hstop : o = eapolSetPairwiseGtk env frame (ies.gtk.getD []) s := by
      rw [ho]
      exact Outcome.andThen_of_ne (by rw [hgroup]; exact hkey)
    refine ⟨fun hanswers => absurd hanswers.1 hkey, fun _ => ?_⟩
    rw [hstop, hgroup]
    refine ⟨rfl, ?_⟩
    show 0 ≤ env.setKeyGroup ↔ 0 < env.setKeyGroup
    omega

/-- Group message 1: it is answered and the counter goes up, or the machine stays
in a state that takes no message any more. -/
theorem receiveGroupMsg1_counter (c : Crypto) (env : FrameEnv) (frame : Bytes)
    {ies : WpaEapolIeParse} {gtk : Bytes} (hgtk : ies.gtk = some gtk)
    (hlength : gtk.length = 18) (s : LoopState) :
    let o := (eapolAuthStateChange env .groupHs1Rcvd s).andThen
      (processEapolGroupHsMsg1 c env frame ies)
    (CountsUp c env s.sm.ptk s.sm.counter →
      At .groupHsReady ((s.sm.counter + 1) % 2 ^ 64) o.state ∧
        o.ret = env.onChange .groupHsReady) ∧
    (¬ CountsUp c env s.sm.ptk s.sm.counter → At .groupHs1Rcvd s.sm.counter o.state ∧
      (0 ≤ o.ret ↔ 0 < env.onChange .groupHs1Rcvd ∨
        env.onChange .groupHs1Rcvd = 0 ∧ 0 < env.setKeyGroup)) := by
  intro o
  by_cases hchange : env.onChange .groupHs1Rcvd = 0
  · have hret : (eapolAuthStateChange env .groupHs1Rcvd s).ret = 0 := hchange
    have ho : o = (eapolAuthStateChange env .groupHs1Rcvd s).andThen
        (processEapolGroupHsMsg1 c env frame ies) := rfl
    obtain ⟨hstate, hresult⟩ := Outcome.andThen_of_eq hret
    obtain ⟨hup, hstop⟩ := processEapolGroupHsMsg1_counter c env frame hgtk hlength
      (eapolAuthStateChange env .groupHs1Rcvd s).state
    rw [ho, hstate, hresult]
    refine ⟨fun hcounts => hup hcounts.2, fun hnot => ?_⟩
    obtain ⟨hsame, hiff⟩ := hstop fun hanswers => hnot ⟨hchange, hanswers⟩
    rw [hsame, hiff]
    exact ⟨⟨rfl, rfl⟩, by omega⟩
  · have hret : (eapolAuthStateChange env .groupHs1Rcvd s).ret ≠ 0 := hchange
    have ho : o = eapolAuthStateChange env .groupHs1Rcvd s := Outcome.andThen_of_ne hret
    refine ⟨fun hcounts => absurd hcounts.1 hchange, fun _ => ?_⟩
    rw [ho]
    refine ⟨⟨rfl, rfl⟩, ?_⟩
    show 0 ≤ env.onChange .groupHs1Rcvd ↔ _
    omega

/-! ## Replays -/

/-- The counters of the authenticated messages that have been taken. -/
def Beyond (accepted : List Accepted) (counter : Nat) : Prop :=
  ∀ a ∈ accepted, a.message.authenticated = true → a.counter < counter

instance (accepted : List Accepted) (counter : Nat) : Decidable (Beyond accepted counter) := by
  unfold Beyond
  infer_instance

/-- What a replayed frame must not change. -/
structure Unchanged (s s' : LoopState) : Prop where
  state : s'.eapolAuthState = s.eapolAuthState
  counter : s'.sm.counter = s.sm.counter
  aNonce : s'.sm.aNonce = s.sm.aNonce
  ptk : s'.sm.ptk = s.sm.ptk
  gtk : s'.sm.gtk = s.sm.gtk
  gtkPresent : s'.sm.gtkPresent = s.sm.gtkPresent

/-- The frame does not decrease the stored counter, and changes nothing if its own
counter is not beyond those of the authenticated messages taken before. -/
def RefusesReplay (c : Crypto) (ctx : WlanCtx) (s : LoopState × List Accepted)
    (e : FrameEnv × RxFrame) : Prop :=
  ∀ o, processEapolFrame c ctx e.1 e.2 s.1 = .ok o →
    s.1.sm.counter ≤ o.state.sm.counter ∧
      (¬ Beyond s.2 (keyReplayCounter e.2.buf) → Unchanged s.1 o.state)

/-- The frame is not taken for a message 1 with a counter that has been used, and is
no group message whose counter cannot go up. -/
def CounterUnused (c : Crypto) (ctx : WlanCtx) (s : LoopState × List Accepted)
    (e : FrameEnv × RxFrame) : Prop :=
  match takenAs c ctx e.1 e.2 s.1 with
  | some .fourWay1 => Beyond s.2 (keyReplayCounter e.2.buf) ∧
      (SavesCounter e.1 → s.1.sm.counter ≤ keyReplayCounter e.2.buf)
  | some .group1 => CountsUp c e.1 s.1.sm.ptk (keyReplayCounter e.2.buf) →
      keyReplayCounter e.2.buf + 1 < 2 ^ 64
  | _ => True

instance (env : FrameEnv) : Decidable (SavesCounter env) := by
  unfold SavesCounter
  infer_instance

instance (c : Crypto) (env : FrameEnv) (ptk : Bytes) (counter : Nat) :
    Decidable (CountsUp c env ptk counter) := by
  unfold CountsUp AnswersGroup1
  infer_instance

instance (c : Crypto) (ctx : WlanCtx) (s : LoopState × List Accepted)
    (e : FrameEnv × RxFrame) : Decidable (CounterUnused c ctx s e) := by
  unfold CounterUnused
  split <;> infer_instance

/-- Where authenticated messages are awaited, the stored counter covers those that
have been taken. -/
def Covered (s : LoopState × List Accepted) : Prop :=
  s.1.eapolAuthState = .fourWay2Sent ∨ s.1.eapolAuthState = .groupHsReady →
    Beyond s.2 (s.1.sm.counter + 1)

theorem eapolFrames_step {s s' : LoopState × List Accepted} {e : FrameEnv × RxFrame} :
    (eapolFrames c ctx).step s e = some s' ↔
      ∃ o, processEapolFrame c ctx e.1 e.2 s.1 = .ok o ∧
        s' = (o.state, s.2 ++ (takenAs c ctx e.1 e.2 s.1).toList.map fun m =>
          ⟨m, keyReplayCounter e.2.buf⟩) := by
  show (processEapolFrame c ctx e.1 e.2 s.1).toOption.map _ = some s' ↔ _
  cases processEapolFrame c ctx e.1 e.2 s.1 with
  | error fault => simp [Except.toOption]
  | ok o => simp [Except.toOption, eq_comm]

theorem Beyond.mono {accepted : List Accepted} {j k : Nat} (h : Beyond accepted j)
    (hle : j ≤ k) : Beyond accepted k :=
  fun a ha hauth => Nat.lt_of_lt_of_le (h a ha hauth) hle

theorem beyond_append {accepted : List Accepted} {m : Message} {j k : Nat} :
    Beyond (accepted ++ [⟨m, j⟩]) k ↔
      Beyond accepted k ∧ (m.authenticated = true → j < k) := by
  constructor
  · intro h
    exact ⟨fun a ha => h a (List.mem_append_left _ ha),
      h ⟨m, j⟩ (List.mem_append_right _ (List.mem_singleton_self _))⟩
  · rintro ⟨hbefore, hlast⟩ a ha
    cases List.mem_append.mp ha with
    | inl hmem => exact hbefore a hmem
    | inr hmem =>
        rw [List.mem_singleton.mp hmem]
        exact hlast

theorem covered_append {s : LoopState} {accepted : List Accepted} {m : Message} {k : Nat}
    (h : s.eapolAuthState = .fourWay2Sent ∨ s.eapolAuthState = .groupHsReady →
      Beyond accepted (s.sm.counter + 1) ∧ (m.authenticated = true → k ≤ s.sm.counter)) :
    Covered (s, accepted ++ [⟨m, k⟩]) := by
  intro hawaits
  obtain ⟨hbeyond, hle⟩ := h hawaits
  exact beyond_append.mpr ⟨hbeyond, fun hauth => Nat.lt_succ_of_le (hle hauth)⟩

/-- **One frame** keeps the stored counter above those that have been taken. -/
theorem refusesReplay_step {s s' : LoopState × List Accepted} {e : FrameEnv × RxFrame}
    (hcov : Covered s) (hunused : CounterUnused c ctx s e)
    (hstep : (eapolFrames c ctx).step s e = some s') :
    Covered s' ∧ RefusesReplay c ctx s e := by
  obtain ⟨s, accepted⟩ := s
  obtain ⟨env, f⟩ := e
  obtain ⟨o, ho, rfl⟩ := eapolFrames_step.mp hstep
  have hrefuses (h : s.sm.counter ≤ o.state.sm.counter ∧
      (¬ Beyond accepted (keyReplayCounter f.buf) → Unchanged s o.state)) :
      RefusesReplay c ctx (s, accepted) (env, f) := by
    intro o' ho'
    rw [ho] at ho'
    cases ho'
    exact h
  have htakes : Takes c ctx env f s (takenAs c ctx env f s) o := takes_takenAs ho
  unfold CounterUnused at hunused
  dsimp only at hunused htakes ⊢
  cases htaken : takenAs c ctx env f s with
  | none =>
      rw [htaken] at htakes
      cases htakes with
      | none ret =>
          refine ⟨?_, hrefuses ⟨Nat.le_refl _, fun _ => ⟨rfl, rfl, rfl, rfl, rfl, rfl⟩⟩⟩
          show Covered (s, accepted ++ [])
          rw [List.append_nil]
          exact hcov
  | some m =>
      rw [htaken] at htakes hunused
      cases htakes with
      | fourWay1 hstate =>
          obtain ⟨hbeyond, hle⟩ := hunused
          obtain ⟨hsaved, hkept⟩ := receive4wayMsg1_counter c ctx env f s
          by_cases hsaves : SavesCounter env
          · have hcounter : (receive4wayMsg1 c ctx env f s).state.sm.counter =
                keyReplayCounter f.buf := by
              cases hsaved hsaves with
              | inl hrcvd => exact hrcvd.counter
              | inr hsent => exact hsent.counter
            refine ⟨covered_append fun _ => ⟨?_, fun hauth => (by cases hauth)⟩,
              hrefuses ⟨?_, fun hnot => absurd hbeyond hnot⟩⟩
            · rw [hcounter]
              exact hbeyond.mono (Nat.le_succ _)
            · rw [hcounter]
              exact hle hsaves
          · have hat := hkept hsaves
            refine ⟨covered_append fun hawaits => ?_,
              hrefuses ⟨Nat.le_of_eq hat.counter.symm, fun hnot => absurd hbeyond hnot⟩⟩
            rw [hat.state] at hawaits
            exact absurd hawaits (by decide)
      | fourWay3 gtk frame ies hstate hcounter hframe =>
          have hbeyond : Beyond accepted (keyReplayCounter f.buf) :=
            (hcov (.inl hstate)).mono hcounter
          have hplace := receive4wayMsg3_counter c env frame ies (saveGtk s gtk)
          rw [hframe] at hplace
          refine ⟨covered_append fun hawaits => ?_,
            hrefuses ⟨?_, fun hnot => absurd hbeyond hnot⟩⟩
          · obtain hat | hat | hat | hat := hplace
            · rw [hat.state] at hawaits
              exact absurd hawaits (by decide)
            · rw [hat.state] at hawaits
              exact absurd hawaits (by decide)
            · rw [hat.state] at hawaits
              exact absurd hawaits (by decide)
            · rw [hat.counter]
              exact ⟨hbeyond.mono (Nat.le_succ _), fun _ => Nat.le_refl _⟩
          · obtain hat | hat | hat | hat := hplace
            · exact Nat.le_of_eq hat.counter.symm
            · exact Nat.le_trans (Nat.le_of_lt hcounter) (Nat.le_of_eq hat.counter.symm)
            · exact Nat.le_trans (Nat.le_of_lt hcounter) (Nat.le_of_eq hat.counter.symm)
            · exact Nat.le_trans (Nat.le_of_lt hcounter) (Nat.le_of_eq hat.counter.symm)
      | group1 gtk frame ies hstate hcounter hgtk hlength =>
          have hbeyond : Beyond accepted (keyReplayCounter f.buf) :=
            (hcov (.inr hstate)).mono hcounter
          obtain ⟨hup, hstop⟩ := receiveGroupMsg1_counter c env frame hgtk hlength
            { saveGtk s gtk with
              sm := { (saveGtk s gtk).sm with counter := keyReplayCounter f.buf } }
          by_cases hcounts : CountsUp c env s.sm.ptk (keyReplayCounter f.buf)
          · obtain ⟨hat, _⟩ := hup hcounts
            have hnext : (keyReplayCounter f.buf + 1) % 2 ^ 64 = keyReplayCounter f.buf + 1 :=
              Nat.mod_eq_of_lt (hunused hcounts)
            have hafter := hat.counter.trans hnext
            refine ⟨covered_append fun _ => ?_, hrefuses ⟨?_, fun hnot => absurd hbeyond hnot⟩⟩
            · rw [hafter]
              exact ⟨hbeyond.mono (by omega), fun _ => Nat.le_succ _⟩
            · rw [hafter]
              omega
          · have hat := (hstop hcounts).1
            refine ⟨covered_append fun hawaits => ?_,
              hrefuses ⟨?_, fun hnot => absurd hbeyond hnot⟩⟩
            · rw [hat.state] at hawaits
              exact absurd hawaits (by decide)
            · exact Nat.le_trans (Nat.le_of_lt hcounter) (Nat.le_of_eq hat.counter.symm)

end

/--
**The replay counter.**  In every run of frames that takes no message 1 with a
counter that has been used, and answers no group message with the largest counter,
no frame decreases the stored counter, and no frame changes anything whose counter
is not beyond those of the authenticated messages taken before it.
-/
theorem replay_refused (c : Crypto) (ctx : WlanCtx) (start : LoopState)
    (frames : List (FrameEnv × RxFrame))
    (hunused : (eapolFrames c ctx).Meets (CounterUnused c ctx) (start, []) frames) :
    (eapolFrames c ctx).Meets (RefusesReplay c ctx) (start, []) frames := by
  have hstart : Covered (start, []) := fun _ a ha => (by cases ha)
  exact (eapolFrames c ctx).meets_imp Covered
    (fun _ _ _ hcov hK hstep => refusesReplay_step hcov hK hstep) frames hstart hunused

/-- A whole handshake. -/
theorem replay_refused_handshake :
    (eapolFrames plainCrypto sampleCtx).Meets (RefusesReplay plainCrypto sampleCtx)
      (freshLoop, []) [(willingEnv, sampleMsg1), (willingEnv, sampleMsg3)] :=
  replay_refused plainCrypto sampleCtx freshLoop _ (by decide +kernel)

/-- Message 1 of that handshake once more: the stored counter goes back from 2 to 1. -/
theorem replay_taken :
    ((eapolFrames plainCrypto sampleCtx).exec (freshLoop, [])
      [(willingEnv, sampleMsg1), (willingEnv, sampleMsg3), (willingEnv, sampleMsg1)]).any
        (fun s => s.1.sm.counter = 1 ∧ s.1.eapolAuthState = .fourWay2Sent ∧
          s.2 = [⟨.fourWay1, 1⟩, ⟨.fourWay3, 2⟩, ⟨.fourWay1, 1⟩]) = true ∧
    ¬ (eapolFrames plainCrypto sampleCtx).Meets (RefusesReplay plainCrypto sampleCtx)
      (freshLoop, [])
      [(willingEnv, sampleMsg1), (willingEnv, sampleMsg3), (willingEnv, sampleMsg1)] := by
  have hrun : ((eapolFrames plainCrypto sampleCtx).exec (freshLoop, [])
      [(willingEnv, sampleMsg1), (willingEnv, sampleMsg3)]).any (fun s =>
        ((eapolFrames plainCrypto sampleCtx).step s (willingEnv, sampleMsg1)).any
          fun s' => s'.1.sm.counter < s.1.sm.counter) = true := by
    decide +kernel
  refine ⟨by decide +kernel, fun hmeets => ?_⟩
  obtain ⟨s, hs, hstep⟩ := (Option.any_eq_true _ _).mp hrun
  obtain ⟨s', hs', hlt⟩ := (Option.any_eq_true _ _).mp hstep
  have hrefuses := Lib.System.Meets.last _ [_, _] hmeets hs hs'
  obtain ⟨o, ho, heq⟩ := eapolFrames_step.mp hs'
  have hle := (hrefuses o ho).1
  have hless := of_decide_eq_true hlt
  rw [heq] at hless
  exact absurd hless (Nat.not_lt.mpr hle)

end Blts.Wlan
