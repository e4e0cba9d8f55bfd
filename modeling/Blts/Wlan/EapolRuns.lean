import Mathlib.Data.List.Basic
import Blts.Wlan.Eapol

/-!
# Keys are only installed for authenticated frames

The state machine trusts its `PTK` and `ANonce` in the states that follow the
answer to message 1.  `KeyInv` says what they are there: the `ANonce` and the
`SNonce` of the message 2 sent last, and the PTK derived from the two.  A
message 1 carries no MIC, so it may overwrite all three; but then the machine
is in a state that trusts nothing until message 2 is out.

Every call that opens traffic is made while a message 3 or a group message 1 is
processed, and only after the recogniser has checked it (`Msg3Checked`,
`GroupMsg1Checked`).  Together this is `traffic_opened_by_authenticated`.
-/

namespace Blts.Wlan

/-! ## What a run has answered -/

/-- The nonces of the last message 2 among the calls, or `before`. -/
def answeredAfter (before : Option (Bytes × Bytes)) (events : List EapolEvent) :
    Option (Bytes × Bytes) :=
  events.foldl (fun last e => match e with
    | .msg2Sent aNonce sNonce _ => some (aNonce, sNonce)
    | _ => last) before

/-- The PTK of a handshake with the given nonces. -/
def handshakePtk (c : Crypto) (ctx : WlanCtx) (aNonce sNonce : Bytes) : Bytes :=
  wpaPmkToPtk c ctx.wpaPmk "Pairwise key expansion" ctx.ourAddr ctx.theirAddr
    aNonce sNonce 48

/-- No message 2 is among the calls. -/
def NoAnswer (events : List EapolEvent) : Prop :=
  ∀ a s frame, EapolEvent.msg2Sent a s frame ∉ events

theorem answeredAfter_of_noAnswer {events : List EapolEvent}
    (h : NoAnswer events) (before : Option (Bytes × Bytes)) :
    answeredAfter before events = before := by
  induction events generalizing before with
  | nil => rfl
  | cons e events ih =>
      have hrest : NoAnswer events := fun a s frame hmem =>
        h a s frame (List.mem_cons_of_mem _ hmem)
      simp only [answeredAfter, List.foldl_cons]
      split
      next a s frame => exact absurd (List.mem_cons_self) (h a s frame)
      next => exact ih hrest before

theorem answeredAfter_append (before : Option (Bytes × Bytes))
    (xs ys : List EapolEvent) :
    answeredAfter before (xs ++ ys) =
      answeredAfter (answeredAfter before xs) ys :=
  List.foldl_append ..

/-! ## The checks on a frame -/

/-- The MIC field of the frame is the MIC of its bytes under `ptk`. -/
def MicVerifies (c : Crypto) (ptk : Bytes) (f : RxFrame) : Prop :=
  c.wpaEapolKeyMic (ptkKck ptk)
    ((overwrite f.buf 81 (List.replicate 16 0)).take f.len) =
      some (keyMic f.buf)

/-- The RSN IE in the key data of the frame, decrypted with `ptk`, is the one
of the AP's beacon. -/
def CarriesBeaconRsnIe (c : Crypto) (ctx : WlanCtx) (ptk : Bytes)
    (f : RxFrame) : Prop :=
  ∃ frame apRsnIe len, wpaDecryptEapolKeyData c ptk f.buf = .ok (some frame) ∧
    ctx.lastApRsnIe = some apRsnIe ∧ apRsnIe[1]? = some len ∧
    len.toNat + 2 ≤ apRsnIe.length ∧
    (wpaSupplicantParseIes (keyData frame)).rsnIe =
      some (apRsnIe.take (len.toNat + 2))

theorem micVerifies_of_micOk {c : Crypto} {ptk : Bytes} {f : RxFrame}
    (h : eapolKeyFrameMicOk c ptk f = true) : MicVerifies c ptk f := by
  unfold eapolKeyFrameMicOk at h
  simp only at h
  split at h
  next => contradiction
  next mic hmic =>
    rw [beq_iff_eq] at h
    rw [MicVerifies, h]
    exact hmic

/-- Writing at an offset leaves the fields before it alone. -/
theorem field_overwrite {buf src : Bytes} {off o l : Nat} (ho : o + l ≤ off)
    (hoff : off ≤ buf.length) :
    field (overwrite buf off src) o l = field buf o l := by
  have htake : (overwrite buf off src).take off = buf.take off := by
    rw [overwrite, List.append_assoc, List.take_append_of_le_length
      (by rw [List.length_take]; omega), List.take_take, Nat.min_self]
  have hfield (b : Bytes) : field b o l = ((b.take off).drop o).take l := by
    rw [field, List.drop_take, List.take_take, Nat.min_eq_left (by omega)]
  rw [hfield, htake, ← hfield]

/-- Decryption changes the key data and its length, nothing before them. -/
theorem field_decrypted {c : Crypto} {ptk buf frame : Bytes}
    (h : wpaDecryptEapolKeyData c ptk buf = .ok (some frame)) {o l : Nat}
    (hol : o + l ≤ 97) : field frame o l = field buf o l := by
  simp only [wpaDecryptEapolKeyData] at h
  split at h
  next => cases h
  next =>
    split at h
    next => cases h
    next hlen =>
      split at h
      next => cases h
      next plain _ =>
        simp only [Except.ok.injEq, Option.some.injEq] at h
        subst h
        have hbuf : sizeofKeyFrame ≤ buf.length := by omega
        have hinner : 97 ≤ (overwrite buf sizeofKeyFrame plain).length := by
          simp only [overwrite, List.length_append, List.length_take]
          unfold sizeofKeyFrame at hbuf ⊢
          omega
        have hbefore : o + l ≤ sizeofKeyFrame := by
          unfold sizeofKeyFrame
          omega
        rw [field_overwrite hol hinner, field_overwrite hbefore hbuf]

/-! ## What the recognisers check -/

/-- The keys and nonces of two states agree. -/
structure SameKeys (s s' : LoopState) : Prop where
  ptk : s'.sm.ptk = s.sm.ptk
  aNonce : s'.sm.aNonce = s.sm.aNonce
  sNonce : s'.sm.sNonce = s.sm.sNonce

theorem SameKeys.refl (s : LoopState) : SameKeys s s := ⟨rfl, rfl, rfl⟩

theorem SameKeys.trans {s t u : LoopState} (h : SameKeys s t)
    (h' : SameKeys t u) : SameKeys s u :=
  ⟨h'.ptk.trans h.ptk, h'.aNonce.trans h.aNonce, h'.sNonce.trans h.sNonce⟩

/-- Everything `is_4way_msg_3` has checked when it returns 1. -/
structure Msg3Checked (c : Crypto) (ctx : WlanCtx) (f : RxFrame)
    (s : LoopState) : Prop where
  mic : MicVerifies c s.sm.ptk f
  counter : s.sm.counter < keyReplayCounter f.buf
  nonce : keyNonce f.buf = s.sm.aNonce
  rsnIe : CarriesBeaconRsnIe c ctx s.sm.ptk f

/-- Everything `is_group_hs_msg_1` has checked when it returns 1. -/
structure GroupMsg1Checked (c : Crypto) (f : RxFrame) (s : LoopState) :
    Prop where
  mic : MicVerifies c s.sm.ptk f
  counter : s.sm.counter < keyReplayCounter f.buf

theorem sameKeys_saveGtk (s : LoopState) (gtk : Bytes) :
    SameKeys s (saveGtk s gtk) := ⟨rfl, rfl, rfl⟩

/-- The security checks of message 3. -/
theorem eapol3of4SecurityOk_some {ctx : WlanCtx} {frame : Bytes}
    {s s' : LoopState} {ies : WpaEapolIeParse}
    (h : eapol3of4SecurityOk ctx frame s = .ok (some (s', ies))) :
    SameKeys s s' ∧ s.sm.counter < keyReplayCounter frame ∧
      keyNonce frame = s.sm.aNonce ∧
      ∃ apRsnIe len, ctx.lastApRsnIe = some apRsnIe ∧
        apRsnIe[1]? = some len ∧ len.toNat + 2 ≤ apRsnIe.length ∧
        (wpaSupplicantParseIes (keyData frame)).rsnIe =
          some (apRsnIe.take (len.toNat + 2)) := by
  unfold eapol3of4SecurityOk at h
  split at h
  next => cases h
  next hcounter =>
  split at h
  next => cases h
  next hnonce =>
  split at h
  next => cases h
  next apRsnIe hap =>
  split at h
  next => cases h
  next len hlen =>
  simp only at h
  split at h
  next => cases h
  next hfit =>
  split at h
  next => cases h
  next hsize =>
  split at h
  next => cases h
  next hsame =>
  split at h
  next => cases h
  next gtk _ =>
  split at h
  next => cases h
  next =>
    cases h
    refine ⟨sameKeys_saveGtk s gtk, by omega, not_not.mp hnonce, apRsnIe, len,
      hap, hlen, by omega, ?_⟩
    cases hrsn : (wpaSupplicantParseIes (keyData frame)).rsnIe with
    | none =>
        rw [hrsn] at hsize
        simp at hsize
    | some rsn =>
        rw [hrsn] at hsame
        rw [not_not.mp hsame]
        rfl

/-- `is_4way_msg_3` either turns the frame down and keeps the state, or has
made all its checks. -/
theorem is4wayMsg3_spec {c : Crypto} {ctx : WlanCtx} {f : RxFrame}
    {s : LoopState} {r : Recognised} (h : is4wayMsg3 c ctx f s = .ok r) :
    (r.result ≤ 0 ∧ r.state = s) ∨
      (r.result = 1 ∧ SameKeys s r.state ∧ Msg3Checked c ctx f s) := by
  have hno (result : Int) (hle : result ≤ 0) (frame : Bytes)
      (hr : r = .no result s frame) : r.result ≤ 0 ∧ r.state = s := by
    subst hr
    exact ⟨hle, rfl⟩
  simp only [is4wayMsg3, bind, Except.bind, pure, Except.pure] at h
  split at h
  next => exact .inl (hno 0 (by decide) f.buf (Except.ok.inj h).symm)
  next =>
  split at h
  next => exact .inl (hno 0 (by decide) f.buf (Except.ok.inj h).symm)
  next =>
  split at h
  next => exact .inl (hno 0 (by decide) f.buf (Except.ok.inj h).symm)
  next =>
  split at h
  next => exact .inl (hno 0 (by decide) f.buf (Except.ok.inj h).symm)
  next =>
  split at h
  next => exact .inl (hno 0 (by decide) f.buf (Except.ok.inj h).symm)
  next hmic =>
  split at h
  next => cases h
  next decrypted hdec =>
  split at h
  next => exact .inl (hno 0 (by decide) f.buf (Except.ok.inj h).symm)
  next frame =>
  split at h
  next => cases h
  next checked hok =>
  split at h
  next => exact .inl (hno (-1) (by decide) frame (Except.ok.inj h).symm)
  next s' ies =>
    cases h
    obtain ⟨hkeys, hcounter, hnonce, apRsnIe, len, hap, hlen, hfit, hrsn⟩ :=
      eapol3of4SecurityOk_some hok
    refine .inr ⟨rfl, hkeys, ⟨micVerifies_of_micOk (by simpa using hmic), ?_, ?_,
      frame, apRsnIe, len, hdec, hap, hlen, hfit, hrsn⟩⟩
    · rwa [keyReplayCounter, field_decrypted hdec (by decide)] at hcounter
    · rwa [keyNonce, field_decrypted hdec (by decide)] at hnonce

/-- `is_group_hs_msg_1` either turns the frame down and keeps the state, or
has made all its checks. -/
theorem isGroupHsMsg1_spec {c : Crypto} {f : RxFrame} {s : LoopState}
    {r : Recognised} (h : isGroupHsMsg1 c f s = .ok r) :
    (r.result ≤ 0 ∧ r.state = s) ∨
      (r.result = 1 ∧ SameKeys s r.state ∧ GroupMsg1Checked c f s) := by
  have hno (result : Int) (hle : result ≤ 0) (frame : Bytes)
      (hr : r = .no result s frame) : r.result ≤ 0 ∧ r.state = s := by
    subst hr
    exact ⟨hle, rfl⟩
  simp only [isGroupHsMsg1, bind, Except.bind, pure, Except.pure] at h
  split at h
  next => exact .inl (hno 0 (by decide) f.buf (Except.ok.inj h).symm)
  next =>
  split at h
  next => exact .inl (hno 0 (by decide) f.buf (Except.ok.inj h).symm)
  next =>
  split at h
  next => exact .inl (hno 0 (by decide) f.buf (Except.ok.inj h).symm)
  next =>
  split at h
  next => exact .inl (hno 0 (by decide) f.buf (Except.ok.inj h).symm)
  next =>
  split at h
  next => exact .inl (hno 0 (by decide) f.buf (Except.ok.inj h).symm)
  next hmic =>
  split at h
  next => cases h
  next decrypted hdec =>
  split at h
  next => exact .inl (hno 0 (by decide) f.buf (Except.ok.inj h).symm)
  next frame =>
  split at h
  next => exact .inl (hno (-1) (by decide) frame (Except.ok.inj h).symm)
  next s' ies hok =>
    cases h
    unfold eapolGroupHsSecurityOk at hok
    split at hok
    next => cases hok
    next hcounter =>
    simp only at hok
    split at hok
    next => cases hok
    next gtk _ =>
    split at hok
    next => cases hok
    next =>
      cases hok
      refine .inr ⟨rfl, ⟨rfl, rfl, rfl⟩,
        ⟨micVerifies_of_micOk (by simpa using hmic), ?_⟩⟩
      rwa [Nat.not_le, keyReplayCounter, field_decrypted hdec (by decide)]
        at hcounter

/-! ## What the processing functions do -/

/-- The outcome of a function that leaves the keys alone and sends no
message 2. -/
structure KeepsKeys (s : LoopState) (o : Outcome) : Prop where
  keys : SameKeys s o.state
  noAnswer : NoAnswer o.events

namespace KeepsKeys

variable {s : LoopState} {o : Outcome}

theorem quiet (ret : Int) {s' : LoopState} (h : SameKeys s s') :
    KeepsKeys s (.quiet ret s') :=
  ⟨h, fun _ _ _ hmem => by cases hmem⟩

theorem andThen {next : LoopState → Outcome} (ho : KeepsKeys s o)
    (hnext : ∀ s', KeepsKeys s' (next s')) : KeepsKeys s (o.andThen next) := by
  unfold Outcome.andThen
  split
  next => exact ho
  next =>
    refine ⟨ho.keys.trans (hnext o.state).keys, fun a sn frame hmem => ?_⟩
    rcases List.mem_append.mp hmem with hmem | hmem
    · exact ho.noAnswer a sn frame hmem
    · exact (hnext o.state).noAnswer a sn frame hmem

theorem ofState (s' : LoopState) (h : SameKeys s s') (ho : KeepsKeys s' o) :
    KeepsKeys s o :=
  ⟨h.trans ho.keys, ho.noAnswer⟩

end KeepsKeys

theorem keepsKeys_stateChange (env : FrameEnv) (a : AuthState)
    (s : LoopState) : KeepsKeys s (eapolAuthStateChange env a s) :=
  .quiet _ ⟨rfl, rfl, rfl⟩

theorem keepsKeys_setPortAuth (env : FrameEnv) (s : LoopState) :
    KeepsKeys s (eapolSetPortAuth env s) := by
  refine ⟨?_, by simp [NoAnswer, eapolSetPortAuth]⟩
  unfold eapolSetPortAuth
  simp only
  split
  next => exact .refl s
  next => exact ⟨rfl, rfl, rfl⟩

theorem keepsKeys_setPairwiseGtk (env : FrameEnv) (frame gtk : Bytes)
    (s : LoopState) : KeepsKeys s (eapolSetPairwiseGtk env frame gtk s) := by
  unfold eapolSetPairwiseGtk
  split
  next => exact .quiet _ (.refl s)
  next => exact ⟨.refl s, by simp [NoAnswer]⟩

theorem keepsKeys_installPtk (env : FrameEnv) (s : LoopState) :
    KeepsKeys s (eapolInstallPtk env s) :=
  ⟨.refl s, by simp [NoAnswer, eapolInstallPtk]⟩

/-- Sending a message other than message 2. -/
theorem keepsKeys_sendKeyFrame (c : Crypto) (env : FrameEnv) (packet : Bytes)
    {sent : Bytes → EapolEvent}
    (hsent : ∀ p a sn frame, sent p ≠ .msg2Sent a sn frame) (s : LoopState)
    {next : LoopState → Outcome} (hnext : ∀ s', KeepsKeys s' (next s')) :
    KeepsKeys s (sendKeyFrame c env packet sent s next) := by
  unfold sendKeyFrame
  split
  next => exact .quiet _ (.refl s)
  next mic _ =>
    split
    next => exact .quiet _ (.refl s)
    next =>
      refine ⟨(hnext s).keys, fun a sn frame hmem => ?_⟩
      rcases List.mem_cons.mp hmem with heq | hmem
      · exact hsent _ a sn frame heq.symm
      · exact (hnext s).noAnswer a sn frame hmem

/-- Processing message 3 leaves the keys alone. -/
theorem keepsKeys_msg3 (c : Crypto) (env : FrameEnv) (frame : Bytes)
    (ies : WpaEapolIeParse) (s : LoopState) :
    KeepsKeys s (processEapol4wayMsg3 c env frame ies s) := by
  unfold processEapol4wayMsg3
  split
  next => exact .quiet _ (.refl s)
  next =>
    refine .ofState { s with sm :=
      { s.sm with counter := keyReplayCounter frame } } ⟨rfl, rfl, rfl⟩ ?_
    refine keepsKeys_sendKeyFrame c env _ (by simp) _ fun s => ?_
    refine (keepsKeys_stateChange env _ s).andThen fun s => ?_
    refine KeepsKeys.andThen ?_ fun s => ?_
    · split
      next => exact keepsKeys_installPtk env s
      next => exact .quiet _ (.refl s)
    refine KeepsKeys.andThen (.quiet _ ?_) fun s => ?_
    · split
      next => exact ⟨rfl, rfl, rfl⟩
      next => exact .refl s
    refine (keepsKeys_setPairwiseGtk env frame _ s).andThen fun s => ?_
    exact (keepsKeys_setPortAuth env s).andThen
      (keepsKeys_stateChange env _)

/-- Processing group message 1 leaves the keys alone. -/
theorem keepsKeys_groupMsg1 (c : Crypto) (env : FrameEnv) (frame : Bytes)
    (ies : WpaEapolIeParse) (s : LoopState) :
    KeepsKeys s (processEapolGroupHsMsg1 c env frame ies s) := by
  unfold processEapolGroupHsMsg1
  refine (keepsKeys_setPairwiseGtk env frame _ s).andThen fun s => ?_
  refine keepsKeys_sendKeyFrame c env _ (by simp) _ fun s => ?_
  refine (keepsKeys_setPortAuth env s).andThen fun s => ?_
  exact .ofState { s with sm :=
    { s.sm with counter := (s.sm.counter + 1) % 2 ^ 64 } } ⟨rfl, rfl, rfl⟩
    (keepsKeys_stateChange env _ _)

/-! ## The invariant of runs -/

/-- The states in which the machine trusts its keys. -/
def AuthState.keyed : AuthState → Bool
  | .fourWay2Sent | .fourWay3Rcvd | .fourWayComplete | .groupHsReady
  | .groupHs1Rcvd => true
  | .preauth | .fourWay1Rcvd | .groupHsComplete | .authenticated
  | .deauthenticated => false

/-- In the states that trust the keys, they come from the message 1 that was
answered last. -/
def KeyInv (c : Crypto) (ctx : WlanCtx) (answered : Option (Bytes × Bytes))
    (s : LoopState) : Prop :=
  s.eapolAuthState.keyed = true →
    answered = some (s.sm.aNonce, s.sm.sNonce) ∧
      s.sm.ptk = handshakePtk c ctx s.sm.aNonce s.sm.sNonce

variable {c : Crypto} {ctx : WlanCtx} {env : FrameEnv} {f : RxFrame}
  {s : LoopState} {answered : Option (Bytes × Bytes)}

/-- A function that keeps the keys keeps the invariant, if it does not enter
the states that trust them from outside. -/
theorem KeyInv.of_keepsKeys {o : Outcome} (h : KeyInv c ctx answered s)
    (ho : KeepsKeys s o) (hkeyed : o.state.eapolAuthState.keyed = true →
      s.eapolAuthState.keyed = true) :
    KeyInv c ctx (answeredAfter answered o.events) o.state := by
  intro hafter
  obtain ⟨hans, hptk⟩ := h (hkeyed hafter)
  rw [answeredAfter_of_noAnswer ho.noAnswer, ho.keys.ptk, ho.keys.aNonce,
    ho.keys.sNonce]
  exact ⟨hans, hptk⟩

/-- Message 1 overwrites the keys: either the machine waits in a state that
trusts nothing, or message 2 went out with the new nonces. -/
theorem receive4wayMsg1_spec (c : Crypto) (ctx : WlanCtx) (env : FrameEnv)
    (f : RxFrame) (s : LoopState) (answered : Option (Bytes × Bytes)) :
    KeyInv c ctx
      (answeredAfter answered (receive4wayMsg1 c ctx env f s).events)
      (receive4wayMsg1 c ctx env f s).state ∧
    ∀ e ∈ (receive4wayMsg1 c ctx env f s).events, e.opensTraffic = false := by
  unfold receive4wayMsg1 Outcome.andThen eapolAuthStateChange
  split
  next => exact ⟨nofun, by simp [Outcome.quiet]⟩
  next =>
    simp only [Outcome.quiet, List.nil_append]
    unfold processEapol4wayMsg1
    split
    next => exact ⟨nofun, by simp [Outcome.quiet]⟩
    next rsnIe _ =>
    split
    next => exact ⟨nofun, by simp [Outcome.quiet]⟩
    next =>
    simp only
    split
    next => exact ⟨nofun, by simp [Outcome.quiet]⟩
    next =>
    unfold sendKeyFrame
    split
    next => exact ⟨nofun, by simp [Outcome.quiet]⟩
    next mic _ =>
    split
    next => exact ⟨nofun, by simp [Outcome.quiet]⟩
    next =>
      refine ⟨fun _ => ⟨rfl, rfl⟩, ?_⟩
      simp [eapolAuthStateChange, Outcome.quiet, EapolEvent.opensTraffic]

/-- **What one frame can do.**  It changes nothing, it is a message 1, or it
is a message 3 or group message 1 that has passed its checks. -/
theorem processEapolFrame_cases {o : Outcome}
    (h : processEapolFrame c ctx env f s = .ok o) :
    (∃ ret, o = .quiet ret s) ∨
    (o = receive4wayMsg1 c ctx env f s) ∨
    (s.eapolAuthState = .fourWay2Sent ∧ Msg3Checked c ctx f s ∧
      KeepsKeys s o) ∨
    (s.eapolAuthState = .groupHsReady ∧ GroupMsg1Checked c f s ∧
      KeepsKeys s o) := by
  have hquiet (ret : Int) (ho : .quiet ret s = o) :
      ∃ ret, o = .quiet ret s := ⟨ret, ho.symm⟩
  unfold processEapolFrame at h
  split at h
  next => exact .inl (hquiet _ (Except.ok.inj h))
  next =>
  split at h
  next => exact .inl (hquiet _ (Except.ok.inj h))
  next =>
  split at h
  next =>
    split at h
    next => exact .inl (hquiet _ (Except.ok.inj h))
    next => exact .inr (.inl (Except.ok.inj h).symm)
  next => exact .inl (hquiet _ (Except.ok.inj h))
  next hstate =>
    simp only [bind, Except.bind, pure, Except.pure] at h
    split at h
    next => cases h
    next r hr =>
    rcases is4wayMsg3_spec hr with ⟨hle, hsame⟩ | ⟨hone, hkeys, hchecked⟩
    · rw [hsame] at h
      split at h
      next => exact .inl (hquiet _ (Except.ok.inj h))
      next =>
        rw [if_pos (by omega)] at h
        exact .inl (hquiet _ (Except.ok.inj h))
    · rw [if_neg (by omega), if_neg (by omega)] at h
      cases h
      refine .inr (.inr (.inl ⟨hstate, hchecked, ?_⟩))
      exact .ofState r.state hkeys ((keepsKeys_stateChange env _ _).andThen
        (keepsKeys_msg3 c env r.frame r.ies))
  next => exact .inl (hquiet _ (Except.ok.inj h))
  next => exact .inl (hquiet _ (Except.ok.inj h))
  next hstate =>
    split at h
    next => exact .inr (.inl (Except.ok.inj h).symm)
    next =>
    simp only [bind, Except.bind, pure, Except.pure] at h
    split at h
    next => cases h
    next r hr =>
    rcases isGroupHsMsg1_spec hr with ⟨hle, hsame⟩ | ⟨hone, hkeys, hchecked⟩
    · rw [hsame] at h
      split at h
      next => exact .inl (hquiet _ (Except.ok.inj h))
      next =>
        rw [if_pos (by omega)] at h
        exact .inl (hquiet _ (Except.ok.inj h))
    · rw [if_neg (by omega), if_neg (by omega)] at h
      cases h
      refine .inr (.inr (.inr ⟨hstate, hchecked, ?_⟩))
      exact .ofState r.state hkeys ((keepsKeys_stateChange env _ _).andThen
        (keepsKeys_groupMsg1 c env r.frame r.ies))
  next => exact .inl (hquiet _ (Except.ok.inj h))
  next => exact .inl (hquiet _ (Except.ok.inj h))
  next => exact .inl (hquiet _ (Except.ok.inj h))
  next => exact .inl (hquiet _ (Except.ok.inj h))

/-- One frame keeps the invariant. -/
theorem keyInv_step {o : Outcome} (h : KeyInv c ctx answered s)
    (hstep : processEapolFrame c ctx env f s = .ok o) :
    KeyInv c ctx (answeredAfter answered o.events) o.state := by
  rcases processEapolFrame_cases hstep with ⟨ret, rfl⟩ | rfl |
    ⟨hstate, -, hkeeps⟩ | ⟨hstate, -, hkeeps⟩
  · exact h
  · exact (receive4wayMsg1_spec c ctx env f s answered).1
  · exact h.of_keepsKeys hkeeps fun _ => by rw [hstate]; rfl
  · exact h.of_keepsKeys hkeeps fun _ => by rw [hstate]; rfl

/-- A run of frames keeps the invariant. -/
theorem keyInv_run (frames : List (FrameEnv × RxFrame)) :
    ∀ {s s' : LoopState} {answered : Option (Bytes × Bytes)}
      {events : List EapolEvent}, KeyInv c ctx answered s →
      receiveFrames c ctx s frames = .ok (s', events) →
      KeyInv c ctx (answeredAfter answered events) s' := by
  induction frames with
  | nil =>
      intro s s' answered events h hrun
      cases hrun
      exact h
  | cons frame frames ih =>
      intro s s' answered events h hrun
      obtain ⟨env, f⟩ := frame
      simp only [receiveFrames, bind, Except.bind, pure, Except.pure] at hrun
      split at hrun
      next => cases hrun
      next o ho =>
      split at hrun
      next => cases hrun
      next rest hrest =>
        cases hrun
        rw [answeredAfter_append]
        exact ih (keyInv_step h ho) hrest

/--
**Traffic is opened by authenticated frames only.**  After any frames received
since the start, a frame that installs a key or authorises the port follows an
answered message 1; its MIC verifies under the PTK of that answer, its replay
counter is beyond the stored one and, while message 3 is awaited, its nonce is
the one of that message 1 and its RSN IE the one of the beacon.
-/
theorem traffic_opened_by_authenticated (c : Crypto) (ctx : WlanCtx)
    (start s : LoopState) (frames : List (FrameEnv × RxFrame))
    (events : List EapolEvent) (env : FrameEnv) (f : RxFrame) (o : Outcome)
    (e : EapolEvent) (hstart : start.eapolAuthState = .preauth)
    (hrun : receiveFrames c ctx start frames = .ok (s, events))
    (hstep : processEapolFrame c ctx env f s = .ok o)
    (hmem : e ∈ o.events) (hopens : e.opensTraffic = true) :
    ∃ aNonce sNonce, answeredAfter none events = some (aNonce, sNonce) ∧
      MicVerifies c (handshakePtk c ctx aNonce sNonce) f ∧
      s.sm.counter < keyReplayCounter f.buf ∧
      (s.eapolAuthState = .fourWay2Sent →
        keyNonce f.buf = aNonce ∧
        CarriesBeaconRsnIe c ctx (handshakePtk c ctx aNonce sNonce) f) := by
  have hstartInv : KeyInv c ctx none start := by
    intro hkeyed
    rw [hstart] at hkeyed
    contradiction
  have hinv := keyInv_run frames hstartInv hrun
  rcases processEapolFrame_cases hstep with ⟨ret, rfl⟩ | rfl |
    ⟨hstate, hchecked, -⟩ | ⟨hstate, hchecked, -⟩
  · cases hmem
  · have hclosed := (receive4wayMsg1_spec c ctx env f s none).2 e hmem
    rw [hopens] at hclosed
    contradiction
  · obtain ⟨hans, hptk⟩ := hinv (by rw [hstate]; rfl)
    refine ⟨_, _, hans, ?_, hchecked.counter, fun _ => ⟨hchecked.nonce, ?_⟩⟩
    · rw [← hptk]; exact hchecked.mic
    · rw [← hptk]; exact hchecked.rsnIe
  · obtain ⟨hans, hptk⟩ := hinv (by rw [hstate]; rfl)
    refine ⟨_, _, hans, ?_, hchecked.counter, fun h2 => ?_⟩
    · rw [← hptk]; exact hchecked.mic
    · rw [hstate] at h2
      contradiction

/-! ## A handshake -/

/-- The sum of bytes. -/
def byteSum (bytes : List UInt8) : UInt8 :=
  bytes.foldl (fun a b => a + b) 0

/-- Stand-ins for the primitives: a checksum, and key wrap as a header of eight
bytes. -/
def plainCrypto : Crypto where
  wpaEapolKeyMic key data := some (List.replicate 16 (byteSum (key ++ data)))
  aesUnwrap _ cipher := if 8 ≤ cipher.length then some (cipher.drop 8) else none
  sha1Prf key _ data len := List.replicate len (byteSum (key ++ data))
  mic_length key data mic h := by
    simp only [Option.some.injEq] at h
    rw [← h, List.length_replicate]
  unwrap_length kek cipher plain h := by
    split at h
    next hlen =>
      cases h
      rw [List.length_drop]
      omega
    next => contradiction

/-- An association whose AP has announced a two byte RSN IE. -/
def sampleCtx : WlanCtx where
  wpaPmk := [1, 2, 3]
  ourAddr := [2, 0, 0, 0, 0, 1]
  theirAddr := [2, 0, 0, 0, 0, 2]
  lastApRsnIe := some [48, 2, 1, 0]

/-- Every operation succeeds. -/
def willingEnv : FrameEnv where
  associated := true
  stillAssociated := true
  rsnIe := some [48, 2, 1, 0]
  nonce := (0, List.replicate 32 9)
  sendResult := 99
  onChange _ := 0
  setKeyPairwise := 0
  setKeyGroup := 0
  setSuppPort := 0

def freshLoop : LoopState where
  eapolAuthState := .preauth
  sm :=
    { counter := 0
      sNonce := []
      aNonce := []
      ptk := []
      gtk := fun _ => []
      gtkPresent := 0
      portEnabled := false
      portValid := false }

/-- An EAPOL-Key frame of the AP. -/
def apFrame (keyInfo counter : Nat) (mic keyData : Bytes) : Bytes :=
  [2, 3, 0, 0, 2] ++ be16 keyInfo ++ be16 0 ++ be64 counter ++
    List.replicate 32 7 ++ List.replicate 32 0 ++ mic ++
    be16 keyData.length ++ keyData

/-- A received frame that fills its buffer. -/
def wholeFrame (buf : Bytes) : RxFrame where
  buf := buf
  len := buf.length
  fits := Nat.le_refl _

/-- The wrapped key data of message 3: the RSN IE, a GTK and padding. -/
def sampleKeyData : Bytes :=
  List.replicate 8 0 ++ [48, 2, 1, 0] ++
    [221, 22, 0x00, 0x0f, 0xac, 1] ++ List.replicate 18 5 ++ [221, 0, 0, 0]

def sampleMsg1 : RxFrame :=
  wholeFrame (apFrame 0x008a 1 (List.replicate 16 0) [])

/-- Message 3, with the MIC that the stand-in computes for it. -/
def sampleMsg3 : RxFrame :=
  let ptk := handshakePtk plainCrypto sampleCtx (List.replicate 32 7)
    (List.replicate 32 9)
  let clear := apFrame 0x13ca 2 (List.replicate 16 0) sampleKeyData
  wholeFrame (apFrame 0x13ca 2
    ((plainCrypto.wpaEapolKeyMic (ptkKck ptk) clear).getD []) sampleKeyData)

/-- The general result where message 3 of a handshake installs the keys. -/
theorem traffic_opened_by_sampleMsg3 :
    ∃ s events o e,
      receiveFrames plainCrypto sampleCtx freshLoop
        [(willingEnv, sampleMsg1)] = .ok (s, events) ∧
      processEapolFrame plainCrypto sampleCtx willingEnv sampleMsg3 s = .ok o ∧
      e ∈ o.events ∧ e.opensTraffic = true ∧
      ∃ aNonce sNonce, answeredAfter none events = some (aNonce, sNonce) ∧
        MicVerifies plainCrypto
          (handshakePtk plainCrypto sampleCtx aNonce sNonce) sampleMsg3 ∧
        s.sm.counter < keyReplayCounter sampleMsg3.buf ∧
        (s.eapolAuthState = .fourWay2Sent →
          keyNonce sampleMsg3.buf = aNonce ∧
          CarriesBeaconRsnIe plainCrypto sampleCtx
            (handshakePtk plainCrypto sampleCtx aNonce sNonce) sampleMsg3) := by
  have hopens : (match receiveFrames plainCrypto sampleCtx freshLoop
        [(willingEnv, sampleMsg1)] with
      | .error _ => false
      | .ok (s, _) =>
          match processEapolFrame plainCrypto sampleCtx willingEnv sampleMsg3 s
            with
          | .error _ => false
          | .ok o => o.events.any EapolEvent.opensTraffic) = true := by
    decide +kernel
  split at hopens
  next => exact absurd hopens Bool.false_ne_true
  next s events hrun =>
  split at hopens
  next => exact absurd hopens Bool.false_ne_true
  next o hstep =>
    obtain ⟨e, hmem, he⟩ := List.any_eq_true.mp hopens
    exact ⟨s, events, o, e, hrun, hstep, hmem, he,
      traffic_opened_by_authenticated plainCrypto sampleCtx freshLoop s _ events
        willingEnv sampleMsg3 o e rfl hrun hstep hmem he⟩

end Blts.Wlan
