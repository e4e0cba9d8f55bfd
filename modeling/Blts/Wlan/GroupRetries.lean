import Blts.Wlan.ReplayCounter

/-!
# Retries of group messages

The machine raises its counter once more after it has answered a group message,
so that it rejects the counter that follows the one received: the counter of a
retry.  A rejected message ends the loop.
-/

namespace Blts.Wlan

open Blts.Lib

/-- Group message 1 with a valid MIC, whose key data can be decrypted and holds a
group key. -/
structure WellFormedGroupMsg1 (c : Crypto) (ptk : Bytes) (f : RxFrame) : Prop where
  length : sizeofKeyFrame ≤ f.len
  descType : descType f.buf = eapolKeyTypeRsn
  keyInfo : keyInfoGroupMsg1 (keyInfo f.buf) = true
  nonce : isBitfieldZero (keyNonce f.buf) = true
  iv : isBitfieldZero (eapolKeyIv f.buf) = true
  mic : MicVerifies c ptk f
  gtk : ∃ frame gtk, wpaDecryptEapolKeyData c ptk f.buf = .ok (some frame) ∧
    (wpaSupplicantParseIes (keyData frame)).gtk = some gtk ∧ gtk.length = 18

/-- The frame is not rejected, and the loop goes on after it. -/
def KeepsLoop (c : Crypto) (ctx : WlanCtx) (env : FrameEnv) (f : RxFrame)
    (s : LoopState) : Prop :=
  (env.associated = true → takenAs c ctx env f s = some .group1) ∧
    ∃ o, processEapolFrame c ctx env f s = .ok o ∧ 0 ≤ o.ret

/-- No operation that the answer to a group message needs reports an error. -/
def ReplySucceeds (c : Crypto) (env : FrameEnv) (ptk : Bytes) (counter : Nat) : Prop :=
  (CountsUp c env ptk counter → 0 ≤ env.onChange .groupHsReady) ∧
    (¬ CountsUp c env ptk counter → 0 < env.onChange .groupHs1Rcvd ∨
      env.onChange .groupHs1Rcvd = 0 ∧ 0 < env.setKeyGroup)

/-- Where group messages are awaited, the stored counter is the one of the last
message taken, or one more after a group message. -/
def CountsLast (s : LoopState × List Accepted) : Prop :=
  s.1.eapolAuthState = .groupHsReady →
    ∃ a, s.2.getLast? = some a ∧
      (a.message = .fourWay3 ∧ s.1.sm.counter = a.counter ∨
        a.message = .group1 ∧ s.1.sm.counter = (a.counter + 1) % 2 ^ 64)

theorem beNat_lt (bytes : Bytes) : beNat bytes < 256 ^ bytes.length := by
  have hfold (bytes : Bytes) (n : Nat) :
      bytes.foldl (fun n b => n * 256 + b.toNat) n < (n + 1) * 256 ^ bytes.length := by
    induction bytes generalizing n with
    | nil =>
        rw [List.foldl_nil, List.length_nil, Nat.pow_zero]
        omega
    | cons b bytes ih =>
        have hb : b.toNat < 256 := b.toNat_lt
        rw [List.foldl_cons, List.length_cons]
        calc List.foldl (fun n b => n * 256 + b.toNat) (n * 256 + b.toNat) bytes
            < (n * 256 + b.toNat + 1) * 256 ^ bytes.length := ih _
          _ ≤ ((n + 1) * 256) * 256 ^ bytes.length := Nat.mul_le_mul_right _ (by omega)
          _ = (n + 1) * 256 ^ (bytes.length + 1) := by
              rw [Nat.mul_assoc, Nat.pow_succ, Nat.mul_comm 256]
  have h := hfold bytes 0
  rwa [Nat.zero_add, Nat.one_mul] at h

theorem keyReplayCounter_lt (buf : Bytes) : keyReplayCounter buf < 2 ^ 64 := by
  have hlength : (field buf 9 8).length ≤ 8 := by
    rw [field, List.length_take]
    exact Nat.min_le_left _ _
  calc keyReplayCounter buf < 256 ^ (field buf 9 8).length := beNat_lt _
    _ ≤ 256 ^ 8 := Nat.pow_le_pow_right (by decide) hlength
    _ = 2 ^ 64 := by decide

section

variable {c : Crypto} {ctx : WlanCtx} {env : FrameEnv} {f : RxFrame} {s : LoopState}

theorem micOk_of_micVerifies {ptk : Bytes} (h : MicVerifies c ptk f) :
    eapolKeyFrameMicOk c ptk f = true := by
  unfold eapolKeyFrameMicOk
  simp only
  rw [show c.wpaEapolKeyMic (ptkKck ptk)
    ((overwrite f.buf 81 (List.replicate 16 0)).take f.len) = some (keyMic f.buf) from h]
  exact beq_self_eq_true _

/-- A well-formed group message is recognised by its counter. -/
theorem isGroupHsMsg1_of_wellFormed (h : WellFormedGroupMsg1 c s.sm.ptk f) :
    ∃ r, isGroupHsMsg1 c f s = .ok r ∧
      (keyReplayCounter f.buf ≤ s.sm.counter → r.result = -1) ∧
      (s.sm.counter < keyReplayCounter f.buf → r.result = 1) := by
  obtain ⟨frame, gtk, hdec, hgtk, hlength⟩ := h.gtk
  have hframe := keyReplayCounter_decrypted hdec
  have hno (hok : eapolGroupHsSecurityOk frame s = none) :
      isGroupHsMsg1 c f s = .ok (.no (-1) s frame) := by
    simp only [isGroupHsMsg1, h.descType, h.keyInfo, h.nonce, h.iv,
      micOk_of_micVerifies h.mic, hdec, hok, bind, Except.bind, pure, Except.pure,
      ne_eq, not_true_eq_false, if_false, Bool.not_true, Bool.false_eq_true]
  have hyes {checked : LoopState × WpaEapolIeParse}
      (hok : eapolGroupHsSecurityOk frame s = some checked) : isGroupHsMsg1 c f s =
        .ok { result := 1, state := checked.1, frame := frame, ies := checked.2 } := by
    simp only [isGroupHsMsg1, h.descType, h.keyInfo, h.nonce, h.iv,
      micOk_of_micVerifies h.mic, hdec, hok, bind, Except.bind, pure, Except.pure,
      ne_eq, not_true_eq_false, if_false, Bool.not_true, Bool.false_eq_true]
  rw [← hframe]
  by_cases hle : keyReplayCounter frame ≤ s.sm.counter
  · have hok : eapolGroupHsSecurityOk frame s = none := if_pos hle
    exact ⟨_, hno hok, fun _ => rfl, fun hlt => absurd hle (Nat.not_le.mpr hlt)⟩
  · obtain ⟨checked, hok⟩ : ∃ checked, eapolGroupHsSecurityOk frame s = some checked := by
      unfold eapolGroupHsSecurityOk
      simp only [if_neg hle, hgtk, hlength, ne_eq, not_true_eq_false, if_false]
      exact ⟨_, rfl⟩
    exact ⟨_, hyes hok, fun h => absurd h hle, fun _ => rfl⟩

theorem not_is4wayMsg1 (h : keyInfoGroupMsg1 (keyInfo f.buf) = true) :
    is4wayMsg1 f.buf = false := by
  have hmic : keyInfoMic (keyInfo f.buf) = true := by
    simp only [keyInfoGroupMsg1, Bool.and_eq_true] at h
    exact h.1.1.1.1.2
  unfold is4wayMsg1
  by_cases hdesc : (descType f.buf != eapolKeyTypeRsn) = true
  · simp only [hdesc, if_true]
  · simp [hdesc, hmic]

/-- A well-formed group message is taken if and only if its counter is beyond the
stored one. -/
theorem takenAs_of_wellFormed (h : WellFormedGroupMsg1 c s.sm.ptk f)
    (hready : s.eapolAuthState = .groupHsReady) (hassociated : env.associated = true) :
    takenAs c ctx env f s = some .group1 ↔ s.sm.counter < keyReplayCounter f.buf := by
  obtain ⟨r, hr, hreplay, hfresh⟩ := isGroupHsMsg1_of_wellFormed h
  have htaken : takenAs c ctx env f s = if 0 < r.result then some .group1 else none := by
    have hany : (isGroupHsMsg1 c f s).toOption.any (fun r => 0 < r.result) =
        decide (0 < r.result) := by
      rw [hr]
      rfl
    unfold takenAs
    simp only [if_neg (Nat.not_lt.mpr h.length), hassociated, Bool.not_true,
      Bool.false_eq_true, if_false, hready, not_is4wayMsg1 h.keyInfo, hany, decide_eq_true_eq]
  rw [htaken]
  by_cases hle : keyReplayCounter f.buf ≤ s.sm.counter
  · rw [hreplay hle]
    exact iff_of_false (by decide) (Nat.not_lt.mpr hle)
  · rw [hfresh (Nat.not_le.mp hle)]
    exact iff_of_true rfl (Nat.not_le.mp hle)

theorem exists_processEapolFrame (ctx : WlanCtx) (env : FrameEnv)
    (h : WellFormedGroupMsg1 c s.sm.ptk f)
    (hready : s.eapolAuthState = .groupHsReady) :
    ∃ o, processEapolFrame c ctx env f s = .ok o := by
  obtain ⟨r, hr, _⟩ := isGroupHsMsg1_of_wellFormed h
  unfold processEapolFrame
  rw [if_neg (Nat.not_lt.mpr h.length)]
  by_cases hassociated : (!env.associated) = true
  · exact ⟨_, if_pos hassociated⟩
  · rw [if_neg hassociated]
    simp only [hready, not_is4wayMsg1 h.keyInfo, Bool.false_eq_true, if_false, hr]
    by_cases hzero : r.result = 0
    · exact ⟨_, if_pos hzero⟩
    · by_cases hneg : r.result < 0
      · exact ⟨_, (if_neg hzero).trans (if_pos hneg)⟩
      · exact ⟨_, (if_neg hzero).trans (if_neg hneg)⟩

/-- The loop goes on after a well-formed group message whose counter is beyond the
stored one, if the answer succeeds. -/
theorem keepsLoop_iff (h : WellFormedGroupMsg1 c s.sm.ptk f)
    (hready : s.eapolAuthState = .groupHsReady) :
    KeepsLoop c ctx env f s ↔ (env.associated = true →
      s.sm.counter < keyReplayCounter f.buf ∧
        ReplySucceeds c env s.sm.ptk (keyReplayCounter f.buf)) := by
  obtain ⟨o, ho⟩ := exists_processEapolFrame ctx env h hready
  have hret : (∃ o, processEapolFrame c ctx env f s = .ok o ∧ 0 ≤ o.ret) ↔ 0 ≤ o.ret := by
    rw [ho]
    constructor
    · rintro ⟨o', heq, hle⟩
      cases heq
      exact hle
    · exact fun hle => ⟨o, rfl, hle⟩
  unfold KeepsLoop
  rw [hret]
  by_cases hassociated : env.associated = true
  · rw [takenAs_of_wellFormed h hready hassociated]
    simp only [hassociated, forall_const]
    refine and_congr_right fun hlt => ?_
    have htakes := takes_takenAs ho
    rw [(takenAs_of_wellFormed h hready hassociated).mpr hlt] at htakes
    cases htakes with
    | group1 gtk frame ies hstate hcounter hgtk hlength =>
        obtain ⟨hup, hstop⟩ := receiveGroupMsg1_counter c env frame hgtk hlength
          { saveGtk s gtk with
            sm := { (saveGtk s gtk).sm with counter := keyReplayCounter f.buf } }
        unfold ReplySucceeds
        by_cases hcounts : CountsUp c env s.sm.ptk (keyReplayCounter f.buf)
        · rw [(hup hcounts).2]
          exact ⟨fun hle => ⟨fun _ => hle, fun hnot => absurd hcounts hnot⟩,
            fun hreply => hreply.1 hcounts⟩
        · rw [(hstop hcounts).2]
          exact ⟨fun hle => ⟨fun h => absurd h hcounts, fun _ => hle⟩,
            fun hreply => hreply.2 hcounts⟩
  · have hignored : o.ret = 0 := by
      have hnot : (!env.associated) = true := by simpa using hassociated
      rw [processEapolFrame, if_neg (Nat.not_lt.mpr h.length), if_pos hnot] at ho
      cases ho
      rfl
    exact iff_of_true ⟨fun h => absurd h hassociated, Int.le_of_eq hignored.symm⟩
      (fun h => absurd h hassociated)

/-- **One frame**, whatever it is taken for. -/
theorem countsLast_step {s s' : LoopState × List Accepted} {e : FrameEnv × RxFrame}
    (hlast : CountsLast s) (hstep : (eapolFrames c ctx).step s e = some s') :
    CountsLast s' := by
  obtain ⟨s, accepted⟩ := s
  obtain ⟨env, f⟩ := e
  obtain ⟨o, ho, rfl⟩ := eapolFrames_step.mp hstep
  have htakes : Takes c ctx env f s (takenAs c ctx env f s) o := takes_takenAs ho
  dsimp only
  cases htaken : takenAs c ctx env f s with
  | none =>
      rw [htaken] at htakes
      cases htakes with
      | none ret =>
          show CountsLast (s, accepted ++ [])
          rw [List.append_nil]
          exact hlast
  | some m =>
      rw [htaken] at htakes
      have hend : (accepted ++ [(⟨m, keyReplayCounter f.buf⟩ : Accepted)]).getLast? =
          some ⟨m, keyReplayCounter f.buf⟩ := List.getLast?_concat
      cases htakes with
      | fourWay1 hstate =>
          obtain ⟨hsaved, hkept⟩ := receive4wayMsg1_counter c ctx env f s
          intro hready
          dsimp only at hready
          by_cases hsaves : SavesCounter env
          · cases hsaved hsaves with
            | inl hat =>
                rw [hat.state] at hready
                cases hready
            | inr hat =>
                rw [hat.state] at hready
                cases hready
          · rw [(hkept hsaves).state] at hready
            cases hready
      | fourWay3 gtk frame ies hstate hcounter hframe =>
          intro hready
          dsimp only at hready
          have hplace := receive4wayMsg3_counter c env frame ies (saveGtk s gtk)
          rw [hframe] at hplace
          obtain hat | hat | hat | hat := hplace
          · rw [hat.state] at hready
            cases hready
          · rw [hat.state] at hready
            cases hready
          · rw [hat.state] at hready
            cases hready
          · exact ⟨_, hend, .inl ⟨rfl, hat.counter⟩⟩
      | group1 gtk frame ies hstate hcounter hgtk hlength =>
          obtain ⟨hup, hstop⟩ := receiveGroupMsg1_counter c env frame hgtk hlength
            { saveGtk s gtk with
              sm := { (saveGtk s gtk).sm with counter := keyReplayCounter f.buf } }
          intro hready
          dsimp only at hready
          by_cases hcounts : CountsUp c env s.sm.ptk (keyReplayCounter f.buf)
          · exact ⟨_, hend, .inr ⟨rfl, (hup hcounts).1.counter⟩⟩
          · rw [(hstop hcounts).1.state] at hready
            cases hready

end

theorem countsLast_run {c : Crypto} {ctx : WlanCtx} (frames : List (FrameEnv × RxFrame)) :
    ∀ {s s' : LoopState × List Accepted}, CountsLast s →
      (eapolFrames c ctx).exec s frames = some s' → CountsLast s' := by
  induction frames with
  | nil =>
      intro s s' hlast hrun
      cases hrun
      exact hlast
  | cons e frames ih =>
      intro s s' hlast hrun
      obtain ⟨s₁, hstep, hrest⟩ := System.exec_cons_eq_some _ hrun
      exact ih (countsLast_step hlast hstep) hrest

/--
**Retries.**  In a state that is ready for group messages, reached from the start by
any frames, let a well-formed group message carry a counter greater than those of all
messages taken before.  It is taken, and the loop goes on, if and only if the station
has been disassociated, or the last message taken is not the group message with the
preceding counter and the answer succeeds.
-/
theorem group_retry_exact (c : Crypto) (ctx : WlanCtx) (start s : LoopState)
    (accepted : List Accepted) (frames : List (FrameEnv × RxFrame)) (env : FrameEnv)
    (f : RxFrame) (hstart : start.eapolAuthState = .preauth)
    (hrun : (eapolFrames c ctx).exec (start, []) frames = some (s, accepted))
    (hready : s.eapolAuthState = .groupHsReady) (h : WellFormedGroupMsg1 c s.sm.ptk f)
    (hgreater : ∀ a ∈ accepted, a.counter < keyReplayCounter f.buf) :
    KeepsLoop c ctx env f s ↔ (env.associated = true →
      accepted.getLast? ≠ some ⟨.group1, keyReplayCounter f.buf - 1⟩ ∧
        ReplySucceeds c env s.sm.ptk (keyReplayCounter f.buf)) := by
  have hinitial : CountsLast (start, []) := by
    intro hready'
    rw [hstart] at hready'
    cases hready'
  obtain ⟨a, hlast, hcounter⟩ := countsLast_run frames hinitial hrun hready
  have hlt := hgreater a (List.mem_of_getLast? hlast)
  have hbound := keyReplayCounter_lt f.buf
  have hstored : s.sm.counter < keyReplayCounter f.buf ↔
      accepted.getLast? ≠ some ⟨.group1, keyReplayCounter f.buf - 1⟩ := by
    dsimp only at hlast hcounter
    rw [hlast]
    obtain ⟨message, counter⟩ := a
    dsimp only at hlt hcounter
    cases hcounter with
    | inl hmsg3 =>
        refine iff_of_true (by omega) fun heq => ?_
        rw [hmsg3.1] at heq
        cases heq
    | inr hgroup =>
        have hnext : (counter + 1) % 2 ^ 64 = counter + 1 := Nat.mod_eq_of_lt (by omega)
        rw [hgroup.1, hgroup.2, hnext]
        constructor
        · intro hless heq
          cases heq
          omega
        · intro hne
          by_contra hnot
          exact hne (by rw [show counter = keyReplayCounter f.buf - 1 by omega])
  rw [keepsLoop_iff h hready, hstored]

/-- A group message of the access point, with the MIC field given. -/
def groupFrame (counter : Nat) (mic : Bytes) : Bytes :=
  let keyData := List.replicate 8 0 ++ [221, 22, 0x00, 0x0f, 0xac, 1] ++ List.replicate 18 5
  [2, 3, 0, 0, 2] ++ be16 0x1382 ++ be16 0 ++ be64 counter ++ List.replicate 64 0 ++ mic ++
    be16 keyData.length ++ keyData

/-- The same with the MIC that the stand-in computes for it. -/
def sampleGroupMsg1 (counter : Nat) : RxFrame :=
  let ptk := handshakePtk plainCrypto sampleCtx (List.replicate 32 7)
    (List.replicate 32 9)
  let clear := groupFrame counter (List.replicate 16 0)
  wholeFrame (groupFrame counter
    ((plainCrypto.wpaEapolKeyMic (ptkKck ptk) clear).getD []))

/-- The handshake, and a group message. -/
def sampleFrames : List (FrameEnv × RxFrame) :=
  [(willingEnv, sampleMsg1), (willingEnv, sampleMsg3), (willingEnv, sampleGroupMsg1 3)]

/-- The checks on a decrypted group message, computed. -/
def groupKeyChecked (ptk : Bytes) (f : RxFrame) : Bool :=
  match wpaDecryptEapolKeyData plainCrypto ptk f.buf with
  | .ok (some frame) => (wpaSupplicantParseIes (keyData frame)).gtk.any (·.length = 18)
  | _ => false

theorem wellFormed_of_checked {ptk : Bytes} {f : RxFrame}
    (hlength : sizeofKeyFrame ≤ f.len)
    (hfields : descType f.buf = eapolKeyTypeRsn ∧ keyInfoGroupMsg1 (keyInfo f.buf) = true ∧
      isBitfieldZero (keyNonce f.buf) = true ∧ isBitfieldZero (eapolKeyIv f.buf) = true)
    (hmic : eapolKeyFrameMicOk plainCrypto ptk f = true)
    (hkey : groupKeyChecked ptk f = true) : WellFormedGroupMsg1 plainCrypto ptk f := by
  refine ⟨hlength, hfields.1, hfields.2.1, hfields.2.2.1, hfields.2.2.2,
    micVerifies_of_micOk hmic, ?_⟩
  unfold groupKeyChecked at hkey
  split at hkey
  next frame hdec =>
    obtain ⟨gtk, hgtk, hlen⟩ := (Option.any_eq_true _ _).mp hkey
    exact ⟨frame, gtk, hdec, hgtk, of_decide_eq_true hlen⟩
  next => cases hkey

/-- After the handshake and group message 3, the group messages 4 and 5 are well
formed. -/
theorem sampleFrames_run :
    ∃ s accepted, (eapolFrames plainCrypto sampleCtx).exec (freshLoop, []) sampleFrames =
        some (s, accepted) ∧
      s.eapolAuthState = .groupHsReady ∧ (∀ a ∈ accepted, a.counter < 4) ∧
      s.sm.counter = 4 ∧
      WellFormedGroupMsg1 plainCrypto s.sm.ptk (sampleGroupMsg1 4) ∧
      WellFormedGroupMsg1 plainCrypto s.sm.ptk (sampleGroupMsg1 5) := by
  have hrun : ((eapolFrames plainCrypto sampleCtx).exec (freshLoop, []) sampleFrames).any
      (fun s => s.1.eapolAuthState = .groupHsReady ∧ (∀ a ∈ s.2, a.counter < 4) ∧
        s.1.sm.counter = 4 ∧
        eapolKeyFrameMicOk plainCrypto s.1.sm.ptk (sampleGroupMsg1 4) = true ∧
        groupKeyChecked s.1.sm.ptk (sampleGroupMsg1 4) = true ∧
        eapolKeyFrameMicOk plainCrypto s.1.sm.ptk (sampleGroupMsg1 5) = true ∧
        groupKeyChecked s.1.sm.ptk (sampleGroupMsg1 5) = true) = true := by
    decide +kernel
  obtain ⟨⟨s, accepted⟩, hs, hchecks⟩ := (Option.any_eq_true _ _).mp hrun
  obtain ⟨hready, hless, hcounter, hmic4, hkey4, hmic5, hkey5⟩ := of_decide_eq_true hchecks
  exact ⟨s, accepted, hs, hready, hless, hcounter,
    wellFormed_of_checked (by decide +kernel) (by decide +kernel) hmic4 hkey4,
    wellFormed_of_checked (by decide +kernel) (by decide +kernel) hmic5 hkey5⟩

/-- Group message 5 after group message 3. -/
theorem group_retry_exact_five :
    ∃ s accepted, (eapolFrames plainCrypto sampleCtx).exec (freshLoop, []) sampleFrames =
        some (s, accepted) ∧
      (KeepsLoop plainCrypto sampleCtx willingEnv (sampleGroupMsg1 5) s ↔
        (willingEnv.associated = true →
          accepted.getLast? ≠ some ⟨.group1, keyReplayCounter (sampleGroupMsg1 5).buf - 1⟩ ∧
            ReplySucceeds plainCrypto willingEnv s.sm.ptk
              (keyReplayCounter (sampleGroupMsg1 5).buf))) := by
  obtain ⟨s, accepted, hrun, hready, hless, _, _, hformed⟩ := sampleFrames_run
  have hcounter : keyReplayCounter (sampleGroupMsg1 5).buf = 5 := by
    decide +kernel
  refine ⟨s, accepted, hrun, group_retry_exact plainCrypto sampleCtx freshLoop s accepted
    sampleFrames willingEnv (sampleGroupMsg1 5) rfl hrun hready hformed fun a ha => ?_⟩
  rw [hcounter]
  exact Nat.lt_trans (hless a ha) (by decide)

/-- Group message 4, which follows group message 3, is rejected and ends the loop,
although its counter has not been used. -/
theorem group_retry_rejected :
    ∃ s accepted, (eapolFrames plainCrypto sampleCtx).exec (freshLoop, []) sampleFrames =
        some (s, accepted) ∧
      s.eapolAuthState = .groupHsReady ∧
      WellFormedGroupMsg1 plainCrypto s.sm.ptk (sampleGroupMsg1 4) ∧
      (∀ a ∈ accepted, a.counter < keyReplayCounter (sampleGroupMsg1 4).buf) ∧
      ¬ KeepsLoop plainCrypto sampleCtx willingEnv (sampleGroupMsg1 4) s := by
  obtain ⟨s, accepted, hrun, hready, hless, hstored, hformed, _⟩ := sampleFrames_run
  have hcounter : keyReplayCounter (sampleGroupMsg1 4).buf = 4 := by
    decide +kernel
  refine ⟨s, accepted, hrun, hready, hformed, by rwa [hcounter], ?_⟩
  rw [keepsLoop_iff hformed hready, hstored, hcounter]
  exact fun h => absurd (h rfl).1 (by decide)

end Blts.Wlan
