import Blts.Lib.Run
import Blts.Ofono.MainLoop

/-!
# Calls of several parties

A timer looks at the number of calls and at the stage of the case.  It asks for a multiparty
call, in one of the cases for a second one with a third call and then for a private chat, and
at last lets the user's timeout hang up.  The replies move the stage.

The last branch for three calls does not look at the stage, and nothing keeps the timer from
making a request again while the first one is unanswered.
-/

namespace Blts.Ofono

open Blts.Lib

/-- `MAX_VOICECALLS`. -/
def maxVoicecalls : Nat := 6

/-- `enum MultiPartyStages`. -/
inductive Stage where
  | undefined
  | init
  | withTwoCreated
  | withThreeCreated
  | privateChat
  | hangup
  deriving DecidableEq

/-- `blts_ofono_case_multiparty` and `blts_ofono_case_private_chat`. -/
inductive MultipartyCase where
  | multiparty
  | privateChat
  deriving DecidableEq

/-- What has been done for the case: a request answered without error, or the hang-up. -/
inductive Answer where
  | created
  | chatted
  | hungUp
  deriving DecidableEq

/-- `struct multipart_call_case_state` without the calls themselves, with what is pending and
what has been answered. -/
structure Multiparty where
  testCase : MultipartyCase
  testStage : Stage
  numberVoiceCalls : Nat
  loop : MainLoop
  /-- Whether the timer that looks at the calls goes on. -/
  listening : Bool
  /-- The user's timeouts that are set. -/
  userTimeouts : Nat
  unansweredCreates : Nat
  unansweredChats : Nat
  answers : List Answer
  /-- A request has been made while the same request was unanswered. -/
  repeated : Bool
  deriving DecidableEq

inductive MultipartyEvent where
  /-- The timer, and whether the voice call manager reports the same number of calls. -/
  | listen (counted : Bool)
  | callAdded
  | callRemoved
  /-- A call cannot be answered: at once, or by holding the other one. -/
  | answerFails
  | holdAndAnswerFails
  | createReply (error : Bool)
  | chatReply (error : Bool)
  | userTimeout (hungUp : Bool)
  | masterTimeout
  | leave
  deriving DecidableEq

/-- The number of calls, as `multiparty_stage_add_call` and `multiparty_stage_remove_call`
count. -/
def addedCalls (n : Nat) : Nat := if maxVoicecalls < n + 1 then n else n + 1

def removedCalls (n : Nat) : Nat := n - 1

namespace Multiparty

def start (testCase : MultipartyCase) : Multiparty where
  testCase := testCase
  testStage := .init
  numberVoiceCalls := 0
  loop := .running
  listening := true
  userTimeouts := 0
  unansweredCreates := 0
  unansweredChats := 0
  answers := []
  repeated := false

def quit (s : Multiparty) (result : Int) : Multiparty := { s with loop := s.loop.quit result }

def createMultiparty (s : Multiparty) : Multiparty :=
  { s with
    unansweredCreates := s.unansweredCreates + 1
    repeated := s.repeated || s.unansweredCreates ≠ 0 }

def requestPrivateChat (s : Multiparty) : Multiparty :=
  { s with
    unansweredChats := s.unansweredChats + 1
    repeated := s.repeated || s.unansweredChats ≠ 0 }

/-- The user's timeout is set, and the timer ends. -/
def scheduleHangup (s : Multiparty) : Multiparty :=
  { s with listening := false, userTimeouts := s.userTimeouts + 1 }

/-- What is done if the number of calls is confirmed. -/
def ifCounted (s : Multiparty) (counted : Bool) (s' : Multiparty) : Multiparty :=
  if counted then s' else { s with listening := false }.quit (-1)

/-- `call_listen_start`. -/
def callListenStart (s : Multiparty) (counted : Bool) : Multiparty :=
  if s.numberVoiceCalls < 1 then s
  else if s.numberVoiceCalls = 2 ∧ s.testStage = .init then
    s.ifCounted counted s.createMultiparty
  else if s.numberVoiceCalls = 2 ∧ s.testStage = .withTwoCreated then
    s.ifCounted counted s.scheduleHangup
  else s

/-- `call_listen_start_private`. -/
def callListenStartPrivate (s : Multiparty) (counted : Bool) : Multiparty :=
  if s.numberVoiceCalls < 2 then s
  else if s.numberVoiceCalls = 2 ∧ s.testStage = .init then
    s.ifCounted counted s.createMultiparty
  else if s.numberVoiceCalls = 3 ∧ s.testStage = .withTwoCreated then
    s.ifCounted counted s.createMultiparty
  else if s.numberVoiceCalls = 3 ∧ s.testStage = .withThreeCreated then
    s.ifCounted counted s.requestPrivateChat
  else if s.numberVoiceCalls = 3 then
    -- the source has the constant `MP_PRIVATE_CHAT` here, and no comparison with the stage
    s.ifCounted counted s.scheduleHangup
  else s

def caseBegin (s : Multiparty) : Bool → Multiparty :=
  match s.testCase with
  | .multiparty => s.callListenStart
  | .privateChat => s.callListenStartPrivate

/-- `on_voice_call_manager_create_multiparty_reply`. -/
def createMultipartyReply (s : Multiparty) (error : Bool) : Multiparty :=
  if error then s.quit (-1)
  else
    { s with
      answers := s.answers ++ [.created]
      testStage :=
        if s.testStage = .init then .withTwoCreated
        else if s.testStage = .withTwoCreated then .withThreeCreated
        else .undefined }

/-- `on_voice_call_manager_private_chat_reply`. -/
def privateChatReply (s : Multiparty) (error : Bool) : Multiparty :=
  if error then s.quit (-1)
  else { s with answers := s.answers ++ [.chatted], testStage := .privateChat }

/-- `call_user_timeout`, with `do_hangup_multiparty` or `do_hangup_all`. -/
def callUserTimeout (s : Multiparty) (hungUp : Bool) : Multiparty :=
  if hungUp then
    { s with
      loop := { s.loop with result := 0 }
      testStage := .hangup
      answers := s.answers ++ [.hungUp] }
  else s.quit (-1)

/-- `on_voice_call_manager_call_removed`. -/
def callRemoved (s : Multiparty) : Multiparty :=
  let s := { s with numberVoiceCalls := removedCalls s.numberVoiceCalls }
  if s.numberVoiceCalls = 0 ∧ s.testStage = .hangup then s.quit s.loop.result else s

end Multiparty

def multipartyStep (s : Multiparty) (e : MultipartyEvent) : Option Multiparty :=
  if s.loop.returned.isSome then none
  else
    match e with
    | .listen counted => if s.listening then some (s.caseBegin counted) else none
    | .callAdded => some { s with numberVoiceCalls := addedCalls s.numberVoiceCalls }
    | .callRemoved => some s.callRemoved
    | .answerFails => some (s.quit (-1))
    | .holdAndAnswerFails => some (s.quit 1)
    | .createReply error =>
        if s.unansweredCreates = 0 then none
        else some ({ s with
          unansweredCreates := s.unansweredCreates - 1 }.createMultipartyReply error)
    | .chatReply error =>
        if s.unansweredChats = 0 then none
        else some ({ s with unansweredChats := s.unansweredChats - 1 }.privateChatReply error)
    | .userTimeout hungUp =>
        if s.userTimeouts = 0 then none
        else some ({ s with userTimeouts := s.userTimeouts - 1 }.callUserTimeout hungUp)
    | .masterTimeout => some (s.quit (-1))
    | .leave => s.loop.leave.map fun loop => { s with loop }

def multipartyCalls : System Multiparty MultipartyEvent := ⟨multipartyStep⟩

/-! ## What the cases test -/

/-- What has to be answered before the hang-up. -/
def MultipartyCase.tests : MultipartyCase → List Answer
  | .multiparty => [.created]
  | .privateChat => [.created, .created, .chatted]

/-- The stages in which the timer of the private chat should find three calls. -/
def Stage.ForThree (stage : Stage) : Prop :=
  stage = .withTwoCreated ∨ stage = .withThreeCreated ∨ stage = .privateChat

/-- The timer does not find a request unanswered that it would make, and three calls in no stage
that is not for them. -/
def InTime (s : Multiparty) : MultipartyEvent → Prop
  | .listen _ =>
      (s.numberVoiceCalls = 2 ∧ s.testStage = .init → s.unansweredCreates = 0) ∧
        (s.testCase = .privateChat → s.numberVoiceCalls = 3 →
          s.testStage.ForThree ∧ (s.testStage = .withTwoCreated → s.unansweredCreates = 0) ∧
            (s.testStage = .withThreeCreated → s.unansweredChats = 0))
  | _ => True

/-- What has been answered when the case is in a stage. -/
def Stage.answered : Stage → List Answer
  | .undefined => []
  | .init => []
  | .withTwoCreated => [.created]
  | .withThreeCreated => [.created, .created]
  | .privateChat => [.created, .created, .chatted]
  | .hangup => []

structure MultipartyInv (testCase : MultipartyCase) (s : Multiparty) : Prop where
  ofCase : s.testCase = testCase
  stage : s.testStage.answered.Sublist s.answers
  chats : s.unansweredChats ≠ 0 → [Answer.created, .created].Sublist s.answers
  hangups : s.userTimeouts ≠ 0 → testCase.tests.Sublist s.answers
  result : s.loop.result = 0 → (testCase.tests ++ [Answer.hungUp]).Sublist s.answers
  passes : s.loop.PassesOnly ((testCase.tests ++ [Answer.hungUp]).Sublist s.answers)

theorem multipartyInv_start (testCase : MultipartyCase) :
    MultipartyInv testCase (.start testCase) where
  ofCase := rfl
  stage := List.Sublist.refl []
  chats := fun h => absurd rfl h
  hangups := fun h => absurd rfl h
  result := fun h => (nomatch h)
  passes := MainLoop.passesOnly_running

namespace MultipartyInv

variable {testCase : MultipartyCase} {s : Multiparty}

theorem quit (h : MultipartyInv testCase s) {result : Int} (hresult : result ≠ 0) :
    MultipartyInv testCase (s.quit result) :=
  ⟨h.ofCase, h.stage, h.chats, h.hangups, fun h => absurd h hresult,
    h.passes.quit fun h => absurd h hresult⟩

theorem create (h : MultipartyInv testCase s) : MultipartyInv testCase s.createMultiparty :=
  ⟨h.ofCase, h.stage, h.chats, h.hangups, h.result, h.passes⟩

theorem chat (h : MultipartyInv testCase s) (hstage : s.testStage = .withThreeCreated) :
    MultipartyInv testCase s.requestPrivateChat :=
  ⟨h.ofCase, h.stage, fun _ => by
    have hanswered := h.stage
    rw [hstage] at hanswered
    exact hanswered, h.hangups, h.result, h.passes⟩

theorem scheduleHangup (h : MultipartyInv testCase s)
    (htests : testCase.tests.Sublist s.answers) : MultipartyInv testCase s.scheduleHangup :=
  ⟨h.ofCase, h.stage, h.chats, fun _ => htests, h.result, h.passes⟩

theorem ifCounted (h : MultipartyInv testCase s) {s' : Multiparty}
    (h' : MultipartyInv testCase s') (counted : Bool) :
    MultipartyInv testCase (s.ifCounted counted s') := by
  unfold Multiparty.ifCounted
  split
  · exact h'
  · have hstops : MultipartyInv testCase { s with listening := false } :=
      ⟨h.ofCase, h.stage, h.chats, h.hangups, h.result, h.passes⟩
    exact hstops.quit (by decide)

/-- **The timers.** -/
theorem caseBegin (h : MultipartyInv testCase s)
    (hthree : s.testCase = .privateChat → s.numberVoiceCalls = 3 → s.testStage.ForThree)
    (counted : Bool) : MultipartyInv testCase (s.caseBegin counted) := by
  have hanswered := h.stage
  unfold Multiparty.caseBegin
  cases hcase : s.testCase with
  | multiparty =>
      obtain rfl : MultipartyCase.multiparty = testCase := hcase.symm.trans h.ofCase
      dsimp only
      unfold Multiparty.callListenStart
      split
      · exact h
      · split
        · exact h.ifCounted h.create counted
        · split
          next htwo =>
            rw [htwo.2] at hanswered
            exact h.ifCounted (h.scheduleHangup hanswered) counted
          · exact h
  | privateChat =>
      obtain rfl : MultipartyCase.privateChat = testCase := hcase.symm.trans h.ofCase
      dsimp only
      unfold Multiparty.callListenStartPrivate
      split
      · exact h
      · split
        · exact h.ifCounted h.create counted
        · split
          · exact h.ifCounted h.create counted
          next htwo =>
            split
            next hstage => exact h.ifCounted (h.chat hstage.2) counted
            next hstage =>
              split
              next hcalls =>
                -- only the private chat is left of the stages
                rcases hthree hcase hcalls with hs | hs | hs
                · exact absurd ⟨hcalls, hs⟩ htwo
                · exact absurd ⟨hcalls, hs⟩ hstage
                · rw [hs] at hanswered
                  exact h.ifCounted (h.scheduleHangup hanswered) counted
              · exact h

/-- One more answer. -/
theorem answer (h : MultipartyInv testCase s) (a : Answer) (stage : Stage)
    (hstage : stage.answered.Sublist (s.answers ++ [a])) :
    MultipartyInv testCase { s with answers := s.answers ++ [a], testStage := stage } := by
  have hkept : ∀ {l : List Answer}, l.Sublist s.answers → l.Sublist (s.answers ++ [a]) :=
    fun hl => hl.trans (List.sublist_append_left s.answers [a])
  exact ⟨h.ofCase, hstage, fun hchats => hkept (h.chats hchats),
    fun hhangups => hkept (h.hangups hhangups), fun hresult => hkept (h.result hresult),
    h.passes.mono hkept⟩

theorem createReply (h : MultipartyInv testCase s) (error : Bool) :
    MultipartyInv testCase (s.createMultipartyReply error) := by
  unfold Multiparty.createMultipartyReply
  split
  · exact h.quit (by decide)
  · apply h.answer
    split
    · exact List.sublist_append_right s.answers [.created]
    · split
      next htwo =>
        have hanswered := h.stage
        rw [htwo] at hanswered
        exact hanswered.append_right [.created]
      · exact List.nil_sublist _

theorem chatReply (h : MultipartyInv testCase s)
    (hcreated : [Answer.created, .created].Sublist s.answers) (error : Bool) :
    MultipartyInv testCase (s.privateChatReply error) := by
  unfold Multiparty.privateChatReply
  split
  · exact h.quit (by decide)
  · exact h.answer .chatted .privateChat (hcreated.append_right [.chatted])

theorem callUserTimeout (h : MultipartyInv testCase s)
    (htests : testCase.tests.Sublist s.answers) (hungUp : Bool) :
    MultipartyInv testCase (s.callUserTimeout hungUp) := by
  unfold Multiparty.callUserTimeout
  split
  · have hinv := h.answer .hungUp .hangup (List.nil_sublist _)
    have hall := htests.append_right [.hungUp]
    exact ⟨hinv.ofCase, hinv.stage, hinv.chats, hinv.hangups, fun _ => hall,
      hinv.passes.setResult fun _ _ => hall⟩
  · exact h.quit (by decide)

theorem callRemoved (h : MultipartyInv testCase s) : MultipartyInv testCase s.callRemoved := by
  unfold Multiparty.callRemoved
  dsimp only
  split
  · exact ⟨h.ofCase, h.stage, h.chats, h.hangups, h.result, h.passes.quit h.result⟩
  · exact ⟨h.ofCase, h.stage, h.chats, h.hangups, h.result, h.passes⟩

/-- **One step** in which the timer finds no three calls too early. -/
theorem step (h : MultipartyInv testCase s) {e : MultipartyEvent}
    (hthree : ∀ counted, e = .listen counted → s.testCase = .privateChat →
      s.numberVoiceCalls = 3 → s.testStage.ForThree) {s' : Multiparty}
    (hstep : multipartyStep s e = some s') : MultipartyInv testCase s' := by
  unfold multipartyStep at hstep
  split at hstep
  · cases hstep
  · cases e with
    | listen counted =>
        dsimp only at hstep
        split at hstep
        · cases hstep
          exact h.caseBegin (hthree counted rfl) counted
        · cases hstep
    | callAdded =>
        cases hstep
        exact ⟨h.ofCase, h.stage, h.chats, h.hangups, h.result, h.passes⟩
    | callRemoved =>
        cases hstep
        exact h.callRemoved
    | answerFails =>
        cases hstep
        exact h.quit (by decide)
    | holdAndAnswerFails =>
        cases hstep
        exact h.quit (by decide)
    | createReply error =>
        dsimp only at hstep
        split at hstep
        · cases hstep
        · cases hstep
          have hinv : MultipartyInv testCase
              { s with unansweredCreates := s.unansweredCreates - 1 } :=
            ⟨h.ofCase, h.stage, h.chats, h.hangups, h.result, h.passes⟩
          exact hinv.createReply error
    | chatReply error =>
        dsimp only at hstep
        split at hstep
        · cases hstep
        next hchats =>
          cases hstep
          have hinv : MultipartyInv testCase { s with unansweredChats := s.unansweredChats - 1 } :=
            ⟨h.ofCase, h.stage, fun _ => h.chats hchats, h.hangups, h.result, h.passes⟩
          exact hinv.chatReply (h.chats hchats) error
    | userTimeout hungUp =>
        dsimp only at hstep
        split at hstep
        · cases hstep
        next hhangups =>
          cases hstep
          have hinv : MultipartyInv testCase { s with userTimeouts := s.userTimeouts - 1 } :=
            ⟨h.ofCase, h.stage, h.chats, fun _ => h.hangups hhangups, h.result, h.passes⟩
          exact hinv.callUserTimeout (h.hangups hhangups) hungUp
    | masterTimeout =>
        cases hstep
        exact h.quit (by decide)
    | leave =>
        obtain ⟨loop, hleave, rfl⟩ := Option.map_eq_some_iff.mp hstep
        have hresult : loop.result = s.loop.result := by
          unfold MainLoop.leave at hleave
          split at hleave
          · cases hleave
            rfl
          · cases hleave
        exact ⟨h.ofCase, h.stage, h.chats, h.hangups, fun hzero => h.result (hresult ▸ hzero),
          h.passes.leave hleave⟩

end MultipartyInv

/-! ## Requests that are repeated -/

section

variable {s : Multiparty}

theorem createMultiparty_repeated (h : s.repeated = false) (hnone : s.unansweredCreates = 0) :
    s.createMultiparty.repeated = false := by
  unfold Multiparty.createMultiparty
  rw [h, hnone]
  rfl

theorem requestPrivateChat_repeated (h : s.repeated = false) (hnone : s.unansweredChats = 0) :
    s.requestPrivateChat.repeated = false := by
  unfold Multiparty.requestPrivateChat
  rw [h, hnone]
  rfl

theorem ifCounted_repeated (h : s.repeated = false) {s' : Multiparty} (h' : s'.repeated = false)
    (counted : Bool) : (s.ifCounted counted s').repeated = false := by
  unfold Multiparty.ifCounted
  split
  · exact h'
  · exact h

theorem caseBegin_repeated (h : s.repeated = false) {counted : Bool}
    (hintime : InTime s (.listen counted)) : (s.caseBegin counted).repeated = false := by
  obtain ⟨htwo, hthree⟩ := hintime
  have hschedule : s.scheduleHangup.repeated = false := h
  unfold Multiparty.caseBegin
  cases hcase : s.testCase with
  | multiparty =>
      dsimp only
      unfold Multiparty.callListenStart
      split
      · exact h
      · split
        next hinit => exact ifCounted_repeated h (createMultiparty_repeated h (htwo hinit)) counted
        · split
          · exact ifCounted_repeated h hschedule counted
          · exact h
  | privateChat =>
      dsimp only
      unfold Multiparty.callListenStartPrivate
      split
      · exact h
      · split
        next hinit => exact ifCounted_repeated h (createMultiparty_repeated h (htwo hinit)) counted
        · split
          next hcalls =>
            have hnone := (hthree hcase hcalls.1).2.1 hcalls.2
            exact ifCounted_repeated h (createMultiparty_repeated h hnone) counted
          · split
            next hcalls =>
              have hnone := (hthree hcase hcalls.1).2.2 hcalls.2
              exact ifCounted_repeated h (requestPrivateChat_repeated h hnone) counted
            · split
              · exact ifCounted_repeated h hschedule counted
              · exact h

theorem step_repeated (h : s.repeated = false) {e : MultipartyEvent} (hintime : InTime s e)
    {s' : Multiparty} (hstep : multipartyStep s e = some s') : s'.repeated = false := by
  unfold multipartyStep at hstep
  split at hstep
  · cases hstep
  · cases e with
    | listen counted =>
        dsimp only at hstep
        split at hstep
        · cases hstep
          exact caseBegin_repeated h hintime
        · cases hstep
    | callAdded =>
        cases hstep
        exact h
    | callRemoved =>
        cases hstep
        unfold Multiparty.callRemoved
        dsimp only
        split <;> exact h
    | answerFails =>
        cases hstep
        exact h
    | holdAndAnswerFails =>
        cases hstep
        exact h
    | createReply error =>
        dsimp only at hstep
        split at hstep
        · cases hstep
        · cases hstep
          unfold Multiparty.createMultipartyReply
          split <;> exact h
    | chatReply error =>
        dsimp only at hstep
        split at hstep
        · cases hstep
        · cases hstep
          unfold Multiparty.privateChatReply
          split <;> exact h
    | userTimeout hungUp =>
        dsimp only at hstep
        split at hstep
        · cases hstep
        · cases hstep
          unfold Multiparty.callUserTimeout
          split <;> exact h
    | masterTimeout =>
        cases hstep
        exact h
    | leave =>
        obtain ⟨loop, _, rfl⟩ := Option.map_eq_some_iff.mp hstep
        exact h

end

/-! ## Whole runs -/

theorem InTime.forThree {s : Multiparty} {e : MultipartyEvent} (h : InTime s e) (counted : Bool)
    (he : e = .listen counted) (hcase : s.testCase = .privateChat)
    (hcalls : s.numberVoiceCalls = 3) : s.testStage.ForThree := by
  subst he
  exact (h.2 hcase hcalls).1

/-- The case with one multiparty call passes only after it, in every run. -/
theorem multiparty_passes {es : List MultipartyEvent} {s : Multiparty}
    (hexec : multipartyCalls.exec (.start .multiparty) es = some s)
    (hreturned : s.loop.returned = some 0) : [Answer.created, .hungUp].Sublist s.answers := by
  have hinv : MultipartyInv .multiparty s :=
    multipartyCalls.exec_invariant (K := fun _ _ => True) (MultipartyInv .multiparty)
      (fun t _ _ h _ hstep => h.step (fun _ _ hcase _ => by
        rw [h.ofCase] at hcase
        cases hcase) hstep) es (multipartyInv_start .multiparty)
      (multipartyCalls.meets_of_forall es fun _ _ => trivial) hexec
  exact hinv.passes.returned hreturned

/-- One multiparty call, and its end. -/
def oneMultiparty : List MultipartyEvent :=
  [.callAdded, .listen true, .callAdded, .listen true, .createReply false, .listen true,
    .userTimeout true, .callRemoved, .callRemoved, .leave]

theorem multiparty_passes_one : ∃ s, multipartyCalls.exec (.start .multiparty) oneMultiparty =
    some s ∧ [Answer.created, .hungUp].Sublist s.answers := by
  obtain ⟨s, hrun, hreturned⟩ := Option.map_eq_some_iff.mp (by decide +kernel :
    (multipartyCalls.exec (.start .multiparty) oneMultiparty).map (·.loop.returned) =
      some (some 0))
  exact ⟨s, hrun, multiparty_passes hrun hreturned⟩

/-- **Calls of several parties**: if the timer finds no request unanswered that it would make, and
three calls only in the stages for them, no request is repeated, and a case passes only after all
that it tests has been answered, and then the calls hung up. -/
theorem tested_of_inTime (testCase : MultipartyCase) {es : List MultipartyEvent}
    (hintime : multipartyCalls.Meets InTime (.start testCase) es) {s : Multiparty}
    (hexec : multipartyCalls.exec (.start testCase) es = some s) :
    s.repeated = false ∧
      (s.loop.returned = some 0 → (testCase.tests ++ [Answer.hungUp]).Sublist s.answers) := by
  have hinv : MultipartyInv testCase s ∧ s.repeated = false :=
    multipartyCalls.exec_invariant (fun s => MultipartyInv testCase s ∧ s.repeated = false)
      (fun _ _ _ h hintime hstep =>
        ⟨h.1.step hintime.forThree hstep, step_repeated h.2 hintime hstep⟩) es
      ⟨multipartyInv_start testCase, rfl⟩ hintime hexec
  exact ⟨hinv.2, hinv.1.passes.returned⟩

instance : ∀ (s : Multiparty) (e : MultipartyEvent), Decidable (InTime s e)
  | _, .listen _ => by
      unfold InTime Stage.ForThree
      infer_instance
  | _, .callAdded => .isTrue trivial
  | _, .callRemoved => .isTrue trivial
  | _, .answerFails => .isTrue trivial
  | _, .holdAndAnswerFails => .isTrue trivial
  | _, .createReply _ => .isTrue trivial
  | _, .chatReply _ => .isTrue trivial
  | _, .userTimeout _ => .isTrue trivial
  | _, .masterTimeout => .isTrue trivial
  | _, .leave => .isTrue trivial

/-- A private chat, and its end. -/
def chattedCalls : List MultipartyEvent :=
  [.callAdded, .listen true, .callAdded, .listen true, .createReply false, .listen true,
    .callAdded, .listen true, .createReply false, .listen true, .chatReply false, .listen true,
    .userTimeout true, .callRemoved, .callRemoved, .callRemoved, .leave]

theorem tested_chattedCalls :
    ∃ s, multipartyCalls.exec (.start .privateChat) chattedCalls = some s ∧
      s.repeated = false ∧
      [Answer.created, .created, .chatted, .hungUp].Sublist s.answers := by
  have hrun : (multipartyCalls.exec (.start .privateChat) chattedCalls).map (·.loop.returned) =
      some (some 0) := by decide +kernel
  obtain ⟨s, hs, hreturned⟩ := Option.map_eq_some_iff.mp hrun
  have htested := tested_of_inTime .privateChat (by decide +kernel) hs
  exact ⟨s, hs, htested.1, htested.2 hreturned⟩

/-- Three calls between two turns of the timer: they are hung up, and the case passes.  A slow
reply: the request is made again. -/
theorem threeCalls_pass :
    (multipartyCalls.exec (.start .privateChat)
      [.callAdded, .callAdded, .callAdded, .listen true, .userTimeout true, .callRemoved,
        .callRemoved, .callRemoved, .leave]).map
      (fun s => (s.loop.returned, s.answers)) = some (some 0, [.hungUp]) ∧
    (multipartyCalls.exec (.start .multiparty)
      [.callAdded, .callAdded, .listen true, .listen true]).map (·.repeated) = some true := by
  decide +kernel

end Blts.Ofono
