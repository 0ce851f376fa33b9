import Mathlib

/-! Programs of two parties that exchange messages over two in-order channels, and protocols
that say who speaks next. When both programs follow one protocol, no party ever reads a message
that it does not expect, the two never wait for each other, and they agree on the result.
-/

namespace Session

/-- The two parties. -/
inductive Party where
  | left | right
deriving DecidableEq, Repr

/-- The party at the other end. -/
def Party.other : Party → Party
  | .left => .right
  | .right => .left

@[simp] theorem Party.other_other (party : Party) : party.other.other = party := by
  cases party <;> rfl

@[simp] theorem Party.other_ne (party : Party) : party.other ≠ party := by
  cases party <;> decide

@[simp] theorem Party.ne_other (party : Party) : party ≠ party.other := by
  cases party <;> decide

/-- Two different parties are each other's other end. -/
theorem Party.eq_other {party second : Party} (differs : second ≠ party)
    : second = party.other := by
  cases party <;> cases second <;> first | rfl | exact absurd rfl differs

-----------------------------------------------------------------------------------------
-- Scripts
-----------------------------------------------------------------------------------------

/-- A program of one party. A write can fail, and a read can end without a message. -/
inductive Script (μ ε α : Type) where
  | done (result : Except ε α)
  | write (message : μ) (next : Bool → Script μ ε α)
  | read (next : Option μ → Script μ ε α)

namespace Script

variable {μ ε α β γ : Type}

/-- A program that goes on with the result of another one. -/
def bind : Script μ ε α → (α → Script μ ε β) → Script μ ε β
  | .done (.ok value), following => following value
  | .done (.error failure), _ => .done (.error failure)
  | .write message next, following => .write message fun sent => (next sent).bind following
  | .read next, following => .read fun message => (next message).bind following

instance : Monad (Script μ ε) where
  pure value := .done (.ok value)
  bind := Script.bind

instance : LawfulMonad (Script μ ε) :=
  .mk' _
    (fun script => by
      induction script with
      | done result => cases result <;> rfl
      | write message next ih => exact congrArg (Script.write message) (funext ih)
      | read next ih => exact congrArg Script.read (funext ih))
    (fun _ _ => rfl)
    (fun script second third => by
      induction script with
      | done result => cases result <;> rfl
      | write message next ih => exact congrArg (Script.write message) (funext ih)
      | read next ih => exact congrArg Script.read (funext ih))

/-- Ends a program without a result. -/
def fail (failure : ε) : Script μ ε α :=
  .done (.error failure)

/-- Sends a message, or fails. -/
def sending (message : μ) (failure : ε) : Script μ ε Unit :=
  .write message fun sent => if sent then .done (.ok ()) else .fail failure

/-- Waits for a message, or fails. -/
def receiving (failure : ε) : Script μ ε μ :=
  .read fun message =>
    match message with
    | some message => .done (.ok message)
    | none => .fail failure

/-- Goes on when a condition holds, or fails. -/
def guard (condition : Prop) [Decidable condition] (failure : ε) : Script μ ε Unit :=
  if condition then .done (.ok ()) else .fail failure

/-- The result of a call that may have none. -/
def ofOption (failure : ε) : Option α → Script μ ε α
  | some value => .done (.ok value)
  | none => .fail failure

/-- A guard whose condition holds does nothing. -/
theorem guard_of {condition : Prop} [Decidable condition] {failure : ε} (holds : condition)
    : (guard condition failure : Script μ ε Unit) = pure () :=
  if_pos holds

/-- A call that has a result returns it. -/
@[simp] theorem ofOption_some (failure : ε) (value : α)
    : (ofOption failure (some value) : Script μ ε α) = pure value :=
  rfl

/-- What a script returns to a peer that sends anything at all: the received messages, with
`none` for a read that ends without one, and the result.
-/
inductive Returns : Script μ ε α → List (Option μ) → Except ε α → Prop where
  | done {result : Except ε α} : Returns (.done result) [] result
  | write {message : μ} {next : Bool → Script μ ε α} {received : List (Option μ)}
      {result : Except ε α} (sent : Bool) (rest : Returns (next sent) received result)
      : Returns (.write message next) received result
  | read {next : Option μ → Script μ ε α} {received : List (Option μ)} {result : Except ε α}
      (message : Option μ) (rest : Returns (next message) received result)
      : Returns (.read next) (message :: received) result

/-- The value that a finished program returned. -/
def value : Script μ ε α → Option α
  | .done (.ok value) => some value
  | _ => none

/-- A program with a value has returned it. -/
theorem eq_done_of_value {script : Script μ ε α} {result : α} (returned : script.value = some result)
    : script = .done (.ok result) := by
  cases script with
  | done outcome =>
      cases outcome with
      | error failure => cases returned
      | ok value =>
          cases returned
          rfl
  | write message next => cases returned
  | read next => cases returned

/-- A sequence that returned a value ran its two parts one after the other. -/
theorem returns_bind_ok {script : Script μ ε α} {following : α → Script μ ε β}
    {received : List (Option μ)} {result : β}
    (returned : Returns (script >>= following) received (.ok result))
    : ∃ value early late, received = early ++ late ∧ Returns script early (.ok value)
      ∧ Returns (following value) late (.ok result) := by
  induction script generalizing received with
  | done outcome =>
      cases outcome with
      | error failure => cases returned
      | ok value => exact ⟨value, [], received, rfl, .done, returned⟩
  | write message next ih =>
      cases returned with
      | write sent rest =>
          obtain ⟨value, early, late, split, first, second⟩ := ih sent rest
          exact ⟨value, early, late, split, .write sent first, second⟩
  | read next ih =>
      cases returned with
      | read message rest =>
          obtain ⟨value, early, late, rfl, first, second⟩ := ih message rest
          exact ⟨value, message :: early, late, rfl, .read message first, second⟩

/-- A send that did not fail was followed by the rest. -/
theorem returns_sending {message : μ} {failure : ε} {following : Unit → Script μ ε β}
    {received : List (Option μ)} {result : β}
    (returned : Returns (sending message failure >>= following) received (.ok result))
    : Returns (following ()) received (.ok result) := by
  cases returned with
  | write sent rest =>
      cases sent with
      | true => exact rest
      | false => cases rest

/-- A receive that did not fail was followed by the rest with the message. -/
theorem returns_receiving {failure : ε} {following : μ → Script μ ε β}
    {received : List (Option μ)} {result : β}
    (returned : Returns (receiving failure >>= following) received (.ok result))
    : ∃ message later, received = some message :: later
      ∧ Returns (following message) later (.ok result) := by
  cases returned with
  | read message rest =>
      cases message with
      | some message => exact ⟨message, _, rfl, rest⟩
      | none => cases rest

/-- A guard that did not fail was met. -/
theorem returns_guard {condition : Prop} [Decidable condition] {failure : ε}
    {following : Unit → Script μ ε β} {received : List (Option μ)} {result : β}
    (returned : Returns (guard condition failure >>= following) received (.ok result))
    : condition ∧ Returns (following ()) received (.ok result) := by
  by_cases holds : condition
  · rw [guard_of holds] at returned
    exact ⟨holds, returned⟩
  · rw [guard, if_neg holds] at returned
    cases returned

/-- A call that did not fail had a result. -/
theorem returns_ofOption {failure : ε} {called : Option α} {following : α → Script μ ε β}
    {received : List (Option μ)} {result : β}
    (returned : Returns (ofOption failure called >>= following) received (.ok result))
    : ∃ value, called = some value ∧ Returns (following value) received (.ok result) := by
  cases called with
  | none => cases returned
  | some value => exact ⟨value, rfl, returned⟩

/-- What a program returns when all its writes succeed and it receives given messages. -/
def play : Script μ ε α → List (Option μ) → Option (Except ε α)
  | .done result, [] => some result
  | .done _, _ :: _ => none
  | .write _ next, received => (next true).play received
  | .read _, [] => none
  | .read next, message :: received => (next message).play received

/-- What it returns then is one of the results it can have. -/
theorem returns_of_play {script : Script μ ε α} {received : List (Option μ)}
    {result : Except ε α} (played : script.play received = some result)
    : Returns script received result := by
  induction script generalizing received with
  | done outcome =>
      cases received with
      | nil =>
          cases played
          exact .done
      | cons _ _ => cases played
  | write message next ih => exact .write true (ih true played)
  | read next ih =>
      cases received with
      | nil => cases played
      | cons message received => exact .read message (ih message played)

end Script

-----------------------------------------------------------------------------------------
-- Protocols
-----------------------------------------------------------------------------------------

/-- A protocol: who sends the next message, which messages are allowed, and how it goes on. At
the end there is a value that both parties have to agree on.
-/
inductive Protocol (μ β : Type) where
  | stop (agreed : β)
  | send (sender : Party) (allowed : μ → Prop) (rest : μ → Protocol μ β)

/-- A protocol that goes on with the agreed value of another one. -/
def Protocol.bind {μ β γ : Type} : Protocol μ β → (β → Protocol μ γ) → Protocol μ γ
  | .stop agreed, following => following agreed
  | .send sender allowed rest, following =>
      .send sender allowed fun message => (rest message).bind following

/-- A program of a party follows a protocol. It may fail at any point, but not by a mismatch,
and at the end its value agrees with the one of the protocol.
-/
inductive Follows {μ ε α β : Type} (mismatch : ε → Prop) (agrees : α → β → Prop) (party : Party)
    : Script μ ε α → Protocol μ β → Prop where
  | failed {failure : ε} {protocol : Protocol μ β} (harmless : ¬mismatch failure)
      : Follows mismatch agrees party (.done (.error failure)) protocol
  | returned {value : α} {agreed : β} (same : agrees value agreed)
      : Follows mismatch agrees party (.done (.ok value)) (.stop agreed)
  | writes {message : μ} {next : Bool → Script μ ε α} {allowed : μ → Prop}
      {rest : μ → Protocol μ β} (fits : allowed message)
      (sent : Follows mismatch agrees party (next true) (rest message))
      (unsent : ∃ failure, next false = .done (.error failure) ∧ ¬mismatch failure)
      : Follows mismatch agrees party (.write message next) (.send party allowed rest)
  | reads {next : Option μ → Script μ ε α} {allowed : μ → Prop} {rest : μ → Protocol μ β}
      (expects : ∀ message, allowed message
        → Follows mismatch agrees party (next (some message)) (rest message))
      (lost : ∃ failure, next none = .done (.error failure) ∧ ¬mismatch failure)
      : Follows mismatch agrees party (.read next) (.send party.other allowed rest)

section Rules

variable {μ ε α β γ δ : Type} {mismatch : ε → Prop} {agrees : α → β → Prop}
  {agrees' : γ → δ → Prop} {party : Party}

/-- Sequences follow sequences, when the second parts do for all values that agree. -/
theorem Follows.bind {script : Script μ ε α} {protocol : Protocol μ β}
    (first : Follows mismatch agrees party script protocol)
    {following : α → Script μ ε γ} {continued : β → Protocol μ δ}
    (second : ∀ value agreed, agrees value agreed
      → Follows mismatch agrees' party (following value) (continued agreed))
    : Follows mismatch agrees' party (script >>= following) (protocol.bind continued) := by
  induction first with
  | failed harmless => exact .failed harmless
  | returned same => exact second _ _ same
  | writes fits sent unsent ih =>
      obtain ⟨failure, failed, harmless⟩ := unsent
      refine .writes fits ih ⟨failure, ?_, harmless⟩
      rw [failed]
      rfl
  | reads expects lost ih =>
      obtain ⟨failure, failed, harmless⟩ := lost
      refine .reads ih ⟨failure, ?_, harmless⟩
      rw [failed]
      rfl

/-- A part that exchanges no messages leaves the protocol where it is. -/
theorem Follows.silent {script : Script μ ε α} {agreed : β}
    (first : Follows mismatch agrees party script (.stop agreed))
    {following : α → Script μ ε γ} {protocol : Protocol μ δ}
    (second : ∀ value, agrees value agreed
      → Follows mismatch agrees' party (following value) protocol)
    : Follows mismatch agrees' party (script >>= following) protocol := by
  cases first with
  | failed harmless => exact .failed harmless
  | returned same => exact second _ same

/-- A program that only fails follows every protocol. -/
theorem Follows.fail {failure : ε} {protocol : Protocol μ β} (harmless : ¬mismatch failure)
    : Follows mismatch agrees party (.fail failure) protocol :=
  .failed harmless

/-- Sending an allowed message follows the protocol of the message. -/
theorem Follows.sending {message : μ} {failure : ε} {allowed : μ → Prop}
    {rest : μ → Protocol μ β} {following : Unit → Script μ ε α} (fits : allowed message)
    (harmless : ¬mismatch failure)
    (goesOn : Follows mismatch agrees party (following ()) (rest message))
    : Follows mismatch agrees party (Script.sending message failure >>= following)
        (.send party allowed rest) :=
  .writes fits goesOn ⟨failure, rfl, harmless⟩

/-- Waiting for a message follows the protocol of every allowed message. -/
theorem Follows.receiving {failure : ε} {sender : Party} {allowed : μ → Prop}
    {rest : μ → Protocol μ β} {following : μ → Script μ ε α} (peer : sender = party.other)
    (harmless : ¬mismatch failure)
    (goesOn : ∀ message, allowed message
      → Follows mismatch agrees party (following message) (rest message))
    : Follows mismatch agrees party (Script.receiving failure >>= following)
        (.send sender allowed rest) := by
  subst peer
  exact .reads goesOn ⟨failure, rfl, harmless⟩

/-- A check follows the protocol when what comes after it does. It may fail only harmlessly. -/
theorem Follows.guard {condition : Prop} [Decidable condition] {failure : ε}
    {protocol : Protocol μ δ} {following : Unit → Script μ ε γ}
    (passes : ¬condition → ¬mismatch failure)
    (goesOn : condition → Follows mismatch agrees' party (following ()) protocol)
    : Follows mismatch agrees' party (Script.guard condition failure >>= following) protocol := by
  by_cases holds : condition
  · rw [Script.guard, if_pos holds]
    exact goesOn holds
  · rw [Script.guard, if_neg holds]
    exact .failed (passes holds)

/-- The result of a call follows the protocol when every value of it does. -/
theorem Follows.ofOption {failure : ε} {result : Option α} {protocol : Protocol μ δ}
    {following : α → Script μ ε γ} (harmless : result = none → ¬mismatch failure)
    (goesOn : ∀ value, result = some value
      → Follows mismatch agrees' party (following value) protocol)
    : Follows mismatch agrees' party (Script.ofOption failure result >>= following) protocol := by
  cases result with
  | none => exact .failed (harmless rfl)
  | some value => exact goesOn value rfl

end Rules

-----------------------------------------------------------------------------------------
-- Runs
-----------------------------------------------------------------------------------------

/-- The programs of both parties, and the messages of each that the other has not read yet. -/
structure Config (μ ε α : Type) where
  script : Party → Script μ ε α
  sent : Party → List μ

variable {μ ε α β : Type}

/-- Two programs before their first step. -/
def Config.start (left right : Script μ ε α) : Config μ ε α where
  script
    | .left => left
    | .right => right
  sent _ := []

/-- One step of either party. Every write and every read can fail. -/
inductive Step : Config μ ε α → Config μ ε α → Prop where
  | write {config : Config μ ε α} (party : Party) {message : μ} {next : Bool → Script μ ε α}
      (writes : config.script party = .write message next)
      : Step config {
          script := Function.update config.script party (next true)
          sent := Function.update config.sent party (config.sent party ++ [message]) }
  | writeFails {config : Config μ ε α} (party : Party) {message : μ}
      {next : Bool → Script μ ε α} (writes : config.script party = .write message next)
      : Step config { config with script := Function.update config.script party (next false) }
  | read {config : Config μ ε α} (party : Party) {message : μ} {waiting : List μ}
      {next : Option μ → Script μ ε α} (reads : config.script party = .read next)
      (delivered : config.sent party.other = message :: waiting)
      : Step config {
          script := Function.update config.script party (next (some message))
          sent := Function.update config.sent party.other waiting }
  | readFails {config : Config μ ε α} (party : Party) {next : Option μ → Script μ ε α}
      (reads : config.script party = .read next)
      : Step config { config with script := Function.update config.script party (next none) }

/-- The states that two programs can reach. -/
def Reachable (left right : Script μ ε α) (config : Config μ ε α) : Prop :=
  Relation.ReflTransGen Step (.start left right) config

/-- Lets a party take its next step, when it has one that does not fail. -/
def Config.advance (config : Config μ ε α) (party : Party) : Config μ ε α :=
  match config.script party with
  | .done _ => config
  | .write message next =>
      {
        script := Function.update config.script party (next true)
        sent := Function.update config.sent party (config.sent party ++ [message])
      }
  | .read next =>
      match config.sent party.other with
      | [] => config
      | message :: waiting =>
          {
            script := Function.update config.script party (next (some message))
            sent := Function.update config.sent party.other waiting
          }

/-- Lets both parties take turns. -/
def Config.run : ℕ → Config μ ε α → Config μ ε α
  | 0, config => config
  | turns + 1, config => ((config.advance .left).advance .right).run turns

/-- The next step of a party is a step. -/
theorem Config.advance_steps (config : Config μ ε α) (party : Party)
    : Relation.ReflTransGen Step config (config.advance party) := by
  rw [Config.advance]
  split
  · exact .refl
  · exact .single (.write party ‹_›)
  · split
    · exact .refl
    · exact .single (.read party ‹_› ‹_›)

/-- Taking turns is a run. -/
theorem Config.run_steps (turns : ℕ) (config : Config μ ε α)
    : Relation.ReflTransGen Step config (config.run turns) := by
  induction turns generalizing config with
  | zero => exact .refl
  | succ turns ih =>
      exact ((config.advance_steps .left).trans
        ((config.advance .left).advance_steps .right)).trans (ih _)

/-- Messages of one sender lead from one point of a protocol to another. -/
inductive Delivers (sender : Party) : Protocol μ β → List μ → Protocol μ β → Prop where
  | nil {protocol : Protocol μ β} : Delivers sender protocol [] protocol
  | cons {allowed : μ → Prop} {rest : μ → Protocol μ β} {message : μ} {messages : List μ}
      {last : Protocol μ β} (fits : allowed message)
      (others : Delivers sender (rest message) messages last)
      : Delivers sender (.send sender allowed rest) (message :: messages) last

/-- One more message leads one step further. -/
theorem Delivers.concat {sender : Party} {protocol : Protocol μ β} {messages : List μ}
    {allowed : μ → Prop} {rest : μ → Protocol μ β} {message : μ}
    (delivers : Delivers sender protocol messages (.send sender allowed rest))
    (fits : allowed message)
    : Delivers sender protocol (messages ++ [message]) (rest message) := by
  generalize ahead : Protocol.send sender allowed rest = last at delivers
  induction delivers with
  | nil =>
      subst ahead
      exact .cons fits .nil
  | cons first others ih => exact .cons first (ih ahead)

/-- Nothing is delivered from a point where the other party speaks or nobody does. -/
theorem Delivers.nothing {sender : Party} {protocol last : Protocol μ β} {messages : List μ}
    (delivers : Delivers sender protocol messages last)
    (quiet : ∀ allowed rest, protocol ≠ .send sender allowed rest)
    : messages = [] ∧ last = protocol := by
  cases delivers with
  | nil => exact ⟨rfl, rfl⟩
  | cons fits others => exact absurd rfl (quiet _ _)

/-- Both programs are at points of one protocol. One party has sent the messages that lead from
the point of the other to its own, and the other has sent nothing that is still unread.
-/
structure Linked (mismatch : ε → Prop) (agrees : Party → α → β → Prop) (config : Config μ ε α)
    (sender : Party) (behind ahead : Protocol μ β)
    : Prop where
  silent : config.sent sender.other = []
  delivers : Delivers sender behind (config.sent sender) ahead
  receiver : Follows mismatch (agrees sender.other) sender.other (config.script sender.other)
    behind
  speaker : Follows mismatch (agrees sender) sender (config.script sender) ahead

/-- A program that reads goes on with every message that the protocol allows. -/
theorem Follows.expects {mismatch : ε → Prop} {agrees : α → β → Prop} {party sender : Party}
    {next : Option μ → Script μ ε α} {allowed : μ → Prop} {rest : μ → Protocol μ β}
    (follows : Follows mismatch agrees party (.read next) (.send sender allowed rest))
    {message : μ} (fits : allowed message)
    : Follows mismatch agrees party (next (some message)) (rest message) := by
  generalize shape : Protocol.send sender allowed rest = protocol at follows
  cases follows with
  | reads expects lost =>
      obtain ⟨_, rfl, rfl⟩ := Protocol.send.inj shape
      exact expects message fits

/-- A program that reads is at a point where the other party speaks. -/
theorem Follows.speaker {mismatch : ε → Prop} {agrees : α → β → Prop} {party : Party}
    {next : Option μ → Script μ ε α} {protocol : Protocol μ β}
    (follows : Follows mismatch agrees party (.read next) protocol)
    : ∃ allowed rest, protocol = .send party.other allowed rest := by
  cases follows with
  | reads expects lost => exact ⟨_, _, rfl⟩

/-- A program that has its value is at the end of the protocol, and agrees with it. -/
theorem Follows.agreed {mismatch : ε → Prop} {agrees : α → β → Prop} {party : Party} {value : α}
    {protocol : Protocol μ β}
    (follows : Follows mismatch agrees party (.done (.ok value)) protocol)
    : ∃ agreed, protocol = .stop agreed ∧ agrees value agreed := by
  cases follows with
  | returned same => exact ⟨_, rfl, same⟩

section Invariant

variable {mismatch : ε → Prop} {agrees : Party → α → β → Prop} {config next : Config μ ε α}

/-- A party that writes speaks next, and the points of both sides stay linked. -/
theorem Linked.write {sender : Party} {behind ahead : Protocol μ β}
    (linked : Linked mismatch agrees config sender behind ahead) {party : Party} {message : μ}
    {following : Bool → Script μ ε α} (writes : config.script party = .write message following)
    : ∃ behind ahead, Linked mismatch agrees {
        script := Function.update config.script party (following true)
        sent := Function.update config.sent party (config.sent party ++ [message]) }
      party behind ahead := by
  by_cases same : party = sender
  · subst same
    have speaker := linked.speaker
    rw [writes] at speaker
    cases speaker with
    | @writes _ _ allowed rest fits sent unsent =>
        refine ⟨behind, rest message, ?_, ?_, ?_, ?_⟩
        · simpa using linked.silent
        · simpa using linked.delivers.concat fits
        · simpa using linked.receiver
        · simpa using sent
  · obtain rfl := Party.eq_other same
    have receiver := linked.receiver
    rw [writes] at receiver
    cases receiver with
    | @writes _ _ allowed rest fits sent unsent =>
        obtain ⟨none, rfl⟩ := linked.delivers.nothing (by simp)
        refine ⟨.send sender.other allowed rest, rest message, ?_, ?_, ?_, ?_⟩
        · simpa using none
        · simpa [linked.silent] using Delivers.cons fits .nil
        · simpa using linked.speaker
        · simpa using sent

/-- A party that reads meets a message that the protocol allows. -/
theorem Linked.read {sender : Party} {behind ahead : Protocol μ β}
    (linked : Linked mismatch agrees config sender behind ahead) {party : Party} {message : μ}
    {waiting : List μ} {following : Option μ → Script μ ε α}
    (reads : config.script party = .read following)
    (delivered : config.sent party.other = message :: waiting)
    : ∃ behind ahead, Linked mismatch agrees {
        script := Function.update config.script party (following (some message))
        sent := Function.update config.sent party.other waiting }
      party.other behind ahead := by
  have differs : party ≠ sender := by
    rintro rfl
    rw [linked.silent] at delivered
    cases delivered
  obtain rfl := Party.eq_other differs
  rw [Party.other_other] at delivered ⊢
  have receiver := linked.receiver
  have delivers := linked.delivers
  rw [reads] at receiver
  rw [delivered] at delivers
  cases delivers with
  | @cons _ rest _ _ _ fits others =>
      refine ⟨rest message, ahead, ?_, ?_, ?_, ?_⟩
      · simpa using linked.silent
      · simpa using others
      · simpa using receiver.expects fits
      · simpa using linked.speaker

/-- A party that fails keeps the points of both sides. -/
theorem Linked.fail {sender : Party} {behind ahead : Protocol μ β}
    (linked : Linked mismatch agrees config sender behind ahead) {party : Party}
    {script : Script μ ε α} (fails : ∃ failure, script = .done (.error failure) ∧ ¬mismatch failure)
    : Linked mismatch agrees
        { config with script := Function.update config.script party script }
        sender behind ahead := by
  obtain ⟨failure, rfl, harmless⟩ := fails
  by_cases same : party = sender
  · subst same
    exact ⟨linked.silent, linked.delivers, by simpa using linked.receiver,
      by simpa using .failed harmless⟩
  · obtain rfl := Party.eq_other same
    exact ⟨linked.silent, linked.delivers, by simpa using .failed harmless,
      by simpa using linked.speaker⟩

/-- A program that follows a protocol and fails to write or to read fails without a mismatch. -/
theorem Follows.fails {party : Party} {relation : α → β → Prop} {protocol : Protocol μ β}
    {script : Script μ ε α} (follows : Follows mismatch relation party script protocol)
    : (∀ {message following}, script = .write message following
        → ∃ failure, following false = .done (.error failure) ∧ ¬mismatch failure)
      ∧ ∀ {following}, script = .read following
        → ∃ failure, following none = .done (.error failure) ∧ ¬mismatch failure := by
  cases follows with
  | failed harmless => simp
  | returned same => simp
  | writes fits sent unsent =>
      refine ⟨?_, by simp⟩
      rintro _ _ ⟨⟩
      exact unsent
  | reads expects lost =>
      refine ⟨by simp, ?_⟩
      rintro _ ⟨⟩
      exact lost

/-- Either party is at one of the two linked points. -/
theorem Linked.follows {sender : Party} {behind ahead : Protocol μ β}
    (linked : Linked mismatch agrees config sender behind ahead) (party : Party)
    : ∃ protocol, Follows mismatch (agrees party) party (config.script party) protocol := by
  by_cases same : party = sender
  · subst same
    exact ⟨ahead, linked.speaker⟩
  · obtain rfl := Party.eq_other same
    exact ⟨behind, linked.receiver⟩

/-- A step keeps the programs linked. -/
theorem linked_step (linked : ∃ sender behind ahead,
      Linked (β := β) mismatch agrees config sender behind ahead)
    (step : Step config next)
    : ∃ sender behind ahead, Linked (β := β) mismatch agrees next sender behind ahead := by
  obtain ⟨sender, behind, ahead, linked⟩ := linked
  cases step with
  | write party writes => exact ⟨party, linked.write writes⟩
  | writeFails party writes =>
      obtain ⟨protocol, follows⟩ := linked.follows party
      exact ⟨sender, behind, ahead, linked.fail (follows.fails.1 writes)⟩
  | read party reads delivered => exact ⟨party.other, linked.read reads delivered⟩
  | readFails party reads =>
      obtain ⟨protocol, follows⟩ := linked.follows party
      exact ⟨sender, behind, ahead, linked.fail (follows.fails.2 reads)⟩

/-- All reachable states of two programs that follow one protocol are linked. -/
theorem linked_of_reachable (agrees : Party → α → β → Prop) {left right : Script μ ε α}
    {protocol : Protocol μ β}
    (leftFollows : Follows mismatch (agrees .left) .left left protocol)
    (rightFollows : Follows mismatch (agrees .right) .right right protocol)
    (reachable : Reachable left right config)
    : ∃ sender behind ahead, Linked (β := β) mismatch agrees config sender behind ahead := by
  induction reachable with
  | refl => exact ⟨.left, protocol, protocol, rfl, .nil, rightFollows, leftFollows⟩
  | tail _ step ih => exact linked_step ih step

/-- No party of a linked state has met a mismatch. -/
theorem Linked.no_mismatch {sender : Party} {behind ahead : Protocol μ β}
    (linked : Linked mismatch agrees config sender behind ahead) {party : Party} {failure : ε}
    (failed : config.script party = .done (.error failure))
    : ¬mismatch failure := by
  obtain ⟨protocol, follows⟩ := linked.follows party
  rw [failed] at follows
  cases follows with
  | failed harmless => exact harmless

/-- No party of a linked state meets a mismatch when it reads. -/
theorem Linked.reads {sender : Party} {behind ahead : Protocol μ β}
    (linked : Linked mismatch agrees config sender behind ahead) {party : Party} {message : μ}
    {waiting : List μ} {following : Option μ → Script μ ε α}
    (reads : config.script party = .read following)
    (delivered : config.sent party.other = message :: waiting) {failure : ε}
    (failed : following (some message) = .done (.error failure))
    : ¬mismatch failure := by
  obtain ⟨behind, ahead, linked⟩ := linked.read reads delivered
  have stopped : Function.update config.script party (following (some message)) party
      = .done (.error failure) := by
    simpa using failed
  exact linked.no_mismatch stopped

/-- The parties of a linked state do not wait for each other with nothing in flight. -/
theorem Linked.no_deadlock {sender : Party} {behind ahead : Protocol μ β}
    (linked : Linked mismatch agrees config sender behind ahead)
    (idle : ∀ party, config.sent party = [])
    (waiting : ∀ party, ∃ next, config.script party = .read next)
    : False := by
  have delivers := linked.delivers
  have receiver := linked.receiver
  have speaker := linked.speaker
  obtain ⟨first, reads⟩ := waiting sender
  obtain ⟨second, readsToo⟩ := waiting sender.other
  rw [idle sender] at delivers
  rw [readsToo] at receiver
  rw [reads] at speaker
  cases delivers
  obtain ⟨_, _, same⟩ := receiver.speaker
  obtain ⟨_, _, sameToo⟩ := speaker.speaker
  rw [same] at sameToo
  obtain ⟨differs, _⟩ := Protocol.send.inj sameToo
  exact absurd differs (by simp)

/-- Two parties of a linked state that have their values agree on one result. -/
theorem Linked.agreement {sender : Party} {behind ahead : Protocol μ β}
    (linked : Linked mismatch agrees config sender behind ahead) {value : Party → α}
    (returned : ∀ party, config.script party = .done (.ok (value party)))
    : ∃ agreed, ∀ party, agrees party (value party) agreed := by
  have delivers := linked.delivers
  have receiver := linked.receiver
  have speaker := linked.speaker
  rw [returned] at receiver speaker
  obtain ⟨agreed, rfl, same⟩ := receiver.agreed
  obtain ⟨_, rfl⟩ := delivers.nothing (by simp)
  obtain ⟨_, shape, sameToo⟩ := speaker.agreed
  cases shape
  refine ⟨agreed, fun party => ?_⟩
  by_cases here : party = sender
  · rwa [here]
  · rwa [Party.eq_other here]

end Invariant

end Session
