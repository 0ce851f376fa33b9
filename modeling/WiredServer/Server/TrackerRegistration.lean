import WiredServer.Lib.Session
import WiredServer.Server.Servers
import WiredServer.Server.SessionThreads

/-! The registration of a server with a tracker, which runs the same code: the program of the server, the session of
the tracker that answers it, and the messages in between.
-/

open Session

namespace WiredServer.Server

-----------------------------------------------------------------------------------------
-- Messages
-----------------------------------------------------------------------------------------

/-- The errors that the handlers of a registration reply with. -/
inductive TrackerError where
  | messageOutOfSequence
  | unrecognizedMessage
  | loginFailed
  | permissionDenied
  | trackerNotEnabled
  | notRegistered
  deriving DecidableEq, Repr

/-- The messages of a registration. Those that other threads of the tracker send have only their names. -/
inductive TrackerMessage where
  | clientInfo
  | setNick (nick : String)
  | sendLogin (login password : String)
  | sendRegister (message : SendRegister)
  | serverInfo
  | okay
  | error (error : TrackerError)
  | banned
  | login
  | privileges
  | offlineMessageDelivered
  | knownUsers
  | knownUsersDone
  | other (name : String)
  deriving DecidableEq, Repr

-----------------------------------------------------------------------------------------
-- The server
-----------------------------------------------------------------------------------------

/-- Why `wd_tracker_register` gives up an address. -/
inductive RegisterFailure where
  | write
  | read
  | refused (error : TrackerError)
  | unexpected (message : TrackerMessage)
  deriving DecidableEq, Repr

/-- What a server registers with: `wd_tracker_t`, its name, and what it says about itself. -/
structure Registrant where
  login : String
  password : String
  nick : String
  registration : SendRegister

/-- The program of the server. -/
abbrev RegisterScript :=
  Script TrackerMessage RegisterFailure Unit

/-- Goes on only with one kind of message. -/
def expecting (expected message : TrackerMessage) : RegisterScript :=
  match message with
  | .error error => .fail (.refused error)
  | message => if message = expected then pure () else .fail (.unexpected message)

namespace Registrant

variable (registrant : Registrant)

/-- `wd_tracker_register`, behind its last request -/
def readOkay : RegisterScript := do
  let message ← .receiving .read
  expecting .okay message

/-- `wd_tracker_register`, behind the privileges -/
def register : RegisterScript := do
  .sending (.sendRegister registrant.registration) .write
  readOkay

/-- `wd_tracker_register`, behind the login -/
def readPrivileges : RegisterScript := do
  let message ← .receiving .read
  expecting .privileges message
  registrant.register

/-- `wd_tracker_register`, behind the request to log in -/
def readLogin : RegisterScript := do
  let message ← .receiving .read
  expecting .login message
  registrant.readPrivileges

/-- `wd_tracker_register`, behind the nick -/
def logIn : RegisterScript := do
  .sending (.sendLogin registrant.login registrant.password) .write
  registrant.readLogin

/-- `wd_tracker_register`, behind the request to set the nick, the reply to which may be anything -/
def readNick : RegisterScript := do
  let _ ← .receiving .read
  registrant.logIn

/-- `wd_tracker_register`, behind the information about the tracker -/
def setNick : RegisterScript := do
  .sending (.setNick registrant.nick) .write
  registrant.readNick

/-- `wd_tracker_register`, behind its first message -/
def readServerInfo : RegisterScript := do
  let message ← .receiving .read
  if message = .serverInfo then registrant.setNick else .fail (.unexpected message)

/-- `wd_tracker_register`, with a connection to an address of the tracker -/
def script : RegisterScript := do
  .sending .clientInfo .write
  registrant.readServerInfo

end Registrant

-----------------------------------------------------------------------------------------
-- The tracker
-----------------------------------------------------------------------------------------

/-- The session of the tracker, with the replies that its handler has still to send. -/
structure TrackerSession where
  state : UserState
  account : Option Account
  replies : List TrackerMessage

/-- What a handler of the tracker finds when it runs: the settings, the time, the address, whether it is banned, the
account of the login, and how many messages wait for it and users are known.
-/
structure Surroundings where
  enableTracker : Bool
  categories : List String
  now : Date
  ip : String
  isIpv6 : Bool
  cipher : Option Cipher
  banned : Bool
  account : Option Account
  waiting : ℕ
  known : ℕ

/-- The error of a reply of the tracker. -/
def TrackerReply.message : TrackerReply → TrackerMessage
  | .okay => .okay
  | .trackerNotEnabled => .error .trackerNotEnabled
  | .permissionDenied => .error .permissionDenied
  | .notRegistered => .error .notRegistered

/-- `wd_message_send_login` -/
def TrackerSession.sendLogin (session : TrackerSession) (found : Surroundings) (password : String)
    : TrackerSession :=
  if found.banned then { session with replies := [.banned] }
  else
    match found.account with
    | none => { session with replies := [.error .loginFailed] }
    | some account =>
        if account.string .password ≠ password then { session with replies := [.error .loginFailed] }
        else
          {
            state := .loggedIn
            account := some account
            replies := [.login, .privileges] ++ List.replicate found.waiting .offlineMessageDelivered
              ++ List.replicate found.known .knownUsers ++ [.knownUsersDone]
          }

/-- Whether a message is out of sequence in a state of its session. -/
def outOfSequence : UserState → TrackerMessage → Bool
  | .connected, .clientInfo => false
  | .connected, _ => true
  | .gaveClientInfo, .sendLogin _ _ => false
  | .gaveClientInfo, .setNick _ => false
  | .gaveClientInfo, _ => true
  | _, _ => false

/-- `wd_messages_handle_message`, for the messages of a registration -/
def TrackerSession.handle (session : TrackerSession) (found : Surroundings) (tracker : Tracker)
    (message : TrackerMessage) : TrackerSession × Tracker :=
  if outOfSequence session.state message then ({ session with replies := [.error .messageOutOfSequence] }, tracker)
  else
    match message with
    | .clientInfo => ({ session with state := .gaveClientInfo, replies := [.serverInfo] }, tracker)
    | .setNick _ =>
        let denied := session.account.any (·.boolean .userCannotSetNick)
        ({ session with replies := [if denied then .error .permissionDenied else .okay] }, tracker)
    | .sendLogin _ password => (session.sendLogin found password, tracker)
    | .sendRegister message =>
        match session.account with
        | none => ({ session with replies := [.error .permissionDenied] }, tracker)
        | some account =>
            let (reply, tracker) := tracker.sendRegister found.enableTracker found.categories found.now
              ⟨found.ip, found.isIpv6, found.cipher, account⟩ message
            ({ session with replies := [reply.message] }, tracker)
    | _ => ({ session with replies := [.error .unrecognizedMessage] }, tracker)

-----------------------------------------------------------------------------------------
-- Both
-----------------------------------------------------------------------------------------

/-- A registration over one connection: the program of the server, its session on the tracker, and the messages of
each that the other has not read yet.
-/
structure Registration where
  script : RegisterScript
  requests : List TrackerMessage
  session : TrackerSession
  responses : List TrackerMessage
  tracker : Tracker

/-- What happens next. Every write and read of the server may fail. Other threads of the tracker may send messages to
the session when it is logged in, but no replies to its requests; they may disconnect it, as a write that fails
does; and they may change the servers that the tracker knows.
-/
inductive RegistrationAction where
  | write (sent : Bool)
  | read (received : Bool)
  | handle (found : Surroundings)
  | send
  | sendFails
  | broadcast (message : TrackerMessage)
  | disconnect
  | others (tracker : Tracker)

namespace Registration

/-- The registration before the first step. -/
def start (registrant : Registrant) (tracker : Tracker) : Registration where
  script := registrant.script
  requests := []
  session := ⟨.connected, none, []⟩
  responses := []
  tracker := tracker

/-- The state after an action. -/
def step (action : RegistrationAction) (state : Registration) : Option Registration :=
  match action with
  | .write sent =>
      match state.script with
      | .write message next =>
          some { state with
            script := next sent
            requests := if sent then state.requests ++ [message] else state.requests }
      | _ => none
  | .read received =>
      match state.script, received, state.responses with
      | .read next, true, message :: responses =>
          some { state with script := next (some message), responses := responses }
      | .read next, false, _ => some { state with script := next none }
      | _, _, _ => none
  | .handle found =>
      match state.session.state, state.session.replies, state.requests with
      | .disconnected, _, _ => none
      | _, [], message :: requests =>
          let (session, tracker) := state.session.handle found state.tracker message
          some { state with session := session, tracker := tracker, requests := requests }
      | _, _, _ => none
  | .send =>
      match state.session.replies with
      | [] => none
      | message :: replies =>
          some { state with
            session := { state.session with replies := replies }
            responses := state.responses ++ [message] }
  | .sendFails =>
      match state.session.replies with
      | [] => none
      | _ :: replies =>
          some { state with session := { state.session with state := .disconnected, replies := replies } }
  | .broadcast message =>
      if state.session.state = .loggedIn ∧ message ≠ .okay then
        some { state with responses := state.responses ++ [message] }
      else none
  | .disconnect => some { state with session := { state.session with state := .disconnected } }
  | .others tracker => some { state with tracker := tracker }

/-- What the server will read in the end, if nothing is lost. -/
def stream (state : Registration) : List TrackerMessage :=
  state.responses ++ state.session.replies

/-- Whatever confirms the registration comes behind the end of the known users, or it will not be sent before that is.
-/
def IsShielded (state : Registration) : Prop :=
  (∃ front back, state.responses = front ++ .knownUsersDone :: back ∧ .okay ∉ front)
  ∨ (.okay ∉ state.stream ∧ (.knownUsersDone ∈ state.session.replies ∨ state.session.state = .disconnected))

/-- How far a registration has come. Until the session is logged in there is one message under way at most. -/
inductive Phase (registrant : Registrant) (state : Registration) : Prop where
  | idle (quiet : state.session.state ≠ .loggedIn)
      (here : state.script = registrant.script ∨ state.script = registrant.setNick
        ∨ state.script = registrant.logIn)
      (noRequest : state.requests = []) (nothing : state.stream = [])
  | asking (quiet : state.session.state ≠ .loggedIn) (message : TrackerMessage)
      (here : (state.script = registrant.readServerInfo ∧ message = .clientInfo)
        ∨ (state.script = registrant.readNick ∧ message = .setNick registrant.nick)
        ∨ (state.script = registrant.readLogin ∧ message = .sendLogin registrant.login registrant.password))
      (request : state.requests = [message]) (nothing : state.stream = [])
  | answered (quiet : state.session.state ≠ .loggedIn)
      (here : state.script = registrant.readServerInfo ∨ state.script = registrant.readNick
        ∨ (state.script = registrant.readLogin ∧ .login ∉ state.stream))
      (noRequest : state.requests = []) (one : state.stream.length ≤ 1)
  | loggedIn (shielded : state.IsShielded)
      (here : state.script = registrant.readLogin ∨ state.script = registrant.readPrivileges
        ∨ state.script = registrant.register)
      (noRequest : state.requests = [])
  | registering (shielded : state.IsShielded) (here : state.script = Registrant.readOkay)
      (requests : ∀ request ∈ state.requests, ∃ message, request = .sendRegister message)
  | over (failure : RegisterFailure) (here : state.script = .done (.error failure))

-----------------------------------------------------------------------------------------
-- One step
-----------------------------------------------------------------------------------------

section Scripts

variable {following : RegisterScript} {continued : TrackerMessage → RegisterScript}

/-- A request is written, or the program fails. -/
theorem sending_bind (message : TrackerMessage) (failure : RegisterFailure)
    : (Script.sending message failure >>= fun _ => following)
      = .write message fun sent => if sent then following else .done (.error failure) := by
  refine congrArg (Script.write message) (funext fun sent => ?_)
  cases sent <;> rfl

/-- A reply is read, or the program fails. -/
theorem receiving_bind (failure : RegisterFailure)
    : (Script.receiving failure >>= continued)
      = .read fun received => received.elim (.done (.error failure)) continued := by
  refine congrArg Script.read (funext fun received => ?_)
  cases received <;> rfl

/-- Any other message than the expected one ends the program. -/
theorem expecting_bind {expected message : TrackerMessage} (noError : ∀ error, expected ≠ .error error)
    : (expecting expected message >>= fun _ => following)
      = if message = expected then following
        else .done (.error (match message with | .error error => .refused error | other => .unexpected other)) := by
  by_cases same : message = expected
  · subst same
    rw [if_pos rfl]
    cases message with
    | error error => exact absurd rfl (noError error)
    | _ => simp [expecting]
  · rw [if_neg same]
    cases message with
    | error error => rfl
    | _ =>
        simp only [expecting, if_neg same]
        rfl

variable (registrant : Registrant)

/-- The program starts with the information about the client. -/
theorem script_eq
    : registrant.script = .write .clientInfo fun sent =>
        if sent then registrant.readServerInfo else .done (.error .write) :=
  sending_bind _ _

/-- The nick is sent. -/
theorem setNick_eq
    : registrant.setNick = .write (.setNick registrant.nick) fun sent =>
        if sent then registrant.readNick else .done (.error .write) :=
  sending_bind _ _

/-- The login is sent. -/
theorem logIn_eq
    : registrant.logIn = .write (.sendLogin registrant.login registrant.password) fun sent =>
        if sent then registrant.readLogin else .done (.error .write) :=
  sending_bind _ _

/-- The registration is sent. -/
theorem register_eq
    : registrant.register = .write (.sendRegister registrant.registration) fun sent =>
        if sent then Registrant.readOkay else .done (.error .write) :=
  sending_bind _ _

/-- The information about the tracker is read. -/
theorem readServerInfo_eq
    : registrant.readServerInfo = .read fun received => received.elim (.done (.error .read)) fun message =>
        if message = .serverInfo then registrant.setNick else .done (.error (.unexpected message)) :=
  receiving_bind _

/-- Any reply to the nick is read. -/
theorem readNick_eq
    : registrant.readNick = .read fun received =>
        received.elim (.done (.error .read)) fun _ => registrant.logIn :=
  receiving_bind _

/-- The reply to the login is read. -/
theorem readLogin_eq
    : registrant.readLogin = .read fun received => received.elim (.done (.error .read)) fun message =>
        if message = .login then registrant.readPrivileges
        else .done (.error (match message with | .error error => .refused error | other => .unexpected other)) := by
  rw [Registrant.readLogin, receiving_bind]
  refine congrArg Script.read (funext fun received => congrArg _ (funext fun message => ?_))
  exact expecting_bind fun _ same => nomatch same

/-- The privileges are read. -/
theorem readPrivileges_eq
    : registrant.readPrivileges = .read fun received => received.elim (.done (.error .read)) fun message =>
        if message = .privileges then registrant.register
        else .done (.error (match message with | .error error => .refused error | other => .unexpected other)) := by
  rw [Registrant.readPrivileges, receiving_bind]
  refine congrArg Script.read (funext fun received => congrArg _ (funext fun message => ?_))
  exact expecting_bind fun _ same => nomatch same

/-- The reply to the registration is read. -/
theorem readOkay_eq
    : Registrant.readOkay = .read fun received => received.elim (.done (.error .read)) fun message =>
        if message = .okay then .done (.ok ())
        else .done (.error (match message with | .error error => .refused error | other => .unexpected other)) := by
  have ended : ∀ message, expecting .okay message
      = expecting .okay message >>= fun _ => (.done (.ok ()) : RegisterScript) :=
    fun message => (bind_pure _).symm
  rw [Registrant.readOkay, receiving_bind]
  refine congrArg Script.read (funext fun received => congrArg _ (funext fun message => ?_))
  rw [ended]
  exact expecting_bind fun _ same => nomatch same

end Scripts

variable {registrant : Registrant} {state next : Registration}

/-- A write leads to the next read, or ends the program. -/
theorem Phase.write (phase : state.Phase registrant) {sent : Bool} (stepped : step (.write sent) state = some next)
    : next.Phase registrant := by
  rcases phase with ⟨quiet, here, noRequest, nothing⟩ | ⟨quiet, message, here, request, nothing⟩
    | ⟨quiet, here, noRequest, one⟩ | ⟨shielded, here, noRequest⟩ | ⟨shielded, here, requests⟩ | ⟨failure, here⟩
  · rcases here with here | here | here
    · simp only [step, here, script_eq] at stepped
      cases stepped
      cases sent with
      | false => exact .over .write rfl
      | true => exact .asking quiet _ (.inl ⟨rfl, rfl⟩) (by simp [noRequest]) nothing
    · simp only [step, here, setNick_eq] at stepped
      cases stepped
      cases sent with
      | false => exact .over .write rfl
      | true => exact .asking quiet _ (.inr (.inl ⟨rfl, rfl⟩)) (by simp [noRequest]) nothing
    · simp only [step, here, logIn_eq] at stepped
      cases stepped
      cases sent with
      | false => exact .over .write rfl
      | true => exact .asking quiet _ (.inr (.inr ⟨rfl, rfl⟩)) (by simp [noRequest]) nothing
  · rcases here with ⟨here, -⟩ | ⟨here, -⟩ | ⟨here, -⟩
    · simp only [step, here, readServerInfo_eq] at stepped
      cases stepped
    · simp only [step, here, readNick_eq] at stepped
      cases stepped
    · simp only [step, here, readLogin_eq] at stepped
      cases stepped
  · rcases here with here | here | ⟨here, -⟩
    · simp only [step, here, readServerInfo_eq] at stepped
      cases stepped
    · simp only [step, here, readNick_eq] at stepped
      cases stepped
    · simp only [step, here, readLogin_eq] at stepped
      cases stepped
  · rcases here with here | here | here
    · simp only [step, here, readLogin_eq] at stepped
      cases stepped
    · simp only [step, here, readPrivileges_eq] at stepped
      cases stepped
    · simp only [step, here, register_eq] at stepped
      cases stepped
      cases sent with
      | false => exact .over .write rfl
      | true =>
          refine .registering shielded rfl fun request mem => ?_
          rw [if_pos rfl, noRequest] at mem
          exact ⟨_, List.mem_singleton.mp mem⟩
  · simp only [step, here, readOkay_eq] at stepped
    cases stepped
  · simp only [step, here] at stepped
    cases stepped

/-- Reading the next message leaves what confirms the registration behind the end of the known users. -/
theorem IsShielded.read (shielded : state.IsShielded) {message : TrackerMessage} {responses : List TrackerMessage}
    (first : state.responses = message :: responses) (script : RegisterScript)
    : message ≠ .okay
      ∧ (message ≠ .knownUsersDone → IsShielded { state with script := script, responses := responses }) := by
  rcases shielded with ⟨front, back, split, noOkay⟩ | ⟨noOkay, ends⟩
  · rw [first] at split
    cases front with
    | nil =>
        cases split
        exact ⟨nofun, fun other => absurd rfl other⟩
    | cons head front =>
        obtain ⟨rfl, rest⟩ := List.cons.inj split
        rw [List.mem_cons, not_or] at noOkay
        exact ⟨fun same => noOkay.1 same.symm, fun _ => .inl ⟨front, back, rest, noOkay.2⟩⟩
  · rw [stream, first, List.cons_append, List.mem_cons, not_or] at noOkay
    exact ⟨fun same => noOkay.1 same.symm, fun _ => .inr ⟨noOkay.2, ends⟩⟩

/-- A read leads to the next write, or ends the program without a confirmation. -/
theorem Phase.read (phase : state.Phase registrant) {received : Bool}
    (stepped : step (.read received) state = some next)
    : next.Phase registrant := by
  have failed {next' : Option TrackerMessage → RegisterScript} (here : state.script = .read next')
      (fails : next' none = .done (.error .read)) (lost : received = false) : next.Phase registrant := by
    subst lost
    simp only [step, here] at stepped
    cases stepped
    exact .over .read fails
  have got {next' : Option TrackerMessage → RegisterScript} (here : state.script = .read next')
      (isRead : received = true)
      : ∃ message responses, state.responses = message :: responses
        ∧ next = { state with script := next' (some message), responses := responses } := by
    subst isRead
    simp only [step, here] at stepped
    cases responses : state.responses with
    | nil =>
        rw [responses] at stepped
        cases stepped
    | cons message rest =>
        rw [responses] at stepped
        cases stepped
        exact ⟨message, rest, rfl, rfl⟩
  rcases phase with ⟨quiet, here, noRequest, nothing⟩ | ⟨quiet, message, here, request, nothing⟩
    | ⟨quiet, here, noRequest, one⟩ | ⟨shielded, here, noRequest⟩ | ⟨shielded, here, requests⟩ | ⟨failure, here⟩
  · rcases here with here | here | here
    · simp only [step, here, script_eq] at stepped
      cases stepped
    · simp only [step, here, setNick_eq] at stepped
      cases stepped
    · simp only [step, here, logIn_eq] at stepped
      cases stepped
  · have waits {next' : Option TrackerMessage → RegisterScript} (here : state.script = .read next')
        (fails : next' none = .done (.error .read)) : next.Phase registrant := by
      cases received with
      | false => exact failed here fails rfl
      | true =>
          obtain ⟨message, responses, first, -⟩ := got here rfl
          rw [stream, first] at nothing
          cases nothing
    rcases here with ⟨here, -⟩ | ⟨here, -⟩ | ⟨here, -⟩
    · exact waits (here.trans (readServerInfo_eq registrant)) rfl
    · exact waits (here.trans (readNick_eq registrant)) rfl
    · exact waits (here.trans (readLogin_eq registrant)) rfl
  · have last {message : TrackerMessage} {responses : List TrackerMessage}
        (first : state.responses = message :: responses) : responses ++ state.session.replies = [] := by
      rw [stream, first, List.cons_append, List.length_cons] at one
      exact List.length_eq_zero_iff.mp (by omega)
    rcases here with here | here | ⟨here, noLogin⟩
    · have reads := here.trans (readServerInfo_eq registrant)
      cases received with
      | false => exact failed reads rfl rfl
      | true =>
          obtain ⟨message, responses, first, rfl⟩ := got reads rfl
          by_cases isInfo : message = .serverInfo
          · exact .idle quiet (.inr (.inl (if_pos isInfo))) noRequest (last first)
          · exact .over _ (if_neg isInfo)
    · have reads := here.trans (readNick_eq registrant)
      cases received with
      | false => exact failed reads rfl rfl
      | true =>
          obtain ⟨message, responses, first, rfl⟩ := got reads rfl
          exact .idle quiet (.inr (.inr rfl)) noRequest (last first)
    · have reads := here.trans (readLogin_eq registrant)
      cases received with
      | false => exact failed reads rfl rfl
      | true =>
          obtain ⟨message, responses, first, rfl⟩ := got reads rfl
          rw [stream, first, List.cons_append, List.mem_cons, not_or] at noLogin
          exact .over _ (if_neg fun same => noLogin.1 same.symm)
  · rcases here with here | here | here
    · have reads := here.trans (readLogin_eq registrant)
      cases received with
      | false => exact failed reads rfl rfl
      | true =>
          obtain ⟨message, responses, first, rfl⟩ := got reads rfl
          by_cases isLogin : message = .login
          · subst isLogin
            exact .loggedIn ((shielded.read first _).2 nofun) (.inr (.inl rfl)) noRequest
          · exact .over _ (if_neg isLogin)
    · have reads := here.trans (readPrivileges_eq registrant)
      cases received with
      | false => exact failed reads rfl rfl
      | true =>
          obtain ⟨message, responses, first, rfl⟩ := got reads rfl
          by_cases isPrivileges : message = .privileges
          · subst isPrivileges
            exact .loggedIn ((shielded.read first _).2 nofun) (.inr (.inr rfl)) noRequest
          · exact .over _ (if_neg isPrivileges)
    · simp only [step, here, register_eq] at stepped
      cases stepped
  · have reads := here.trans readOkay_eq
    cases received with
    | false => exact failed reads rfl rfl
    | true =>
        obtain ⟨message, responses, first, rfl⟩ := got reads rfl
        exact .over _ (if_neg (shielded.read first (.done (.ok ()))).1)
  · simp only [step, here] at stepped
    cases stepped

/-- A session that is not logged in replies with one message, or logs in. -/
theorem replies_handle (session : TrackerSession) (quiet : session.state ≠ .loggedIn)
    (found : Surroundings) (tracker : Tracker) (message : TrackerMessage)
    : ((session.handle found tracker message).1.state ≠ .loggedIn
        ∧ ∃ reply, (session.handle found tracker message).1.replies = [reply] ∧ reply ≠ .login)
      ∨ ((∃ login password, message = .sendLogin login password)
        ∧ .okay ∉ (session.handle found tracker message).1.replies
        ∧ .knownUsersDone ∈ (session.handle found tracker message).1.replies) := by
  by_cases early : outOfSequence session.state message
  · have answer : session.handle found tracker message
        = ({ session with replies := [.error .messageOutOfSequence] }, tracker) := if_pos early
    rw [answer]
    exact .inl ⟨quiet, _, rfl, nofun⟩
  · cases message with
    | clientInfo =>
        simp only [TrackerSession.handle, if_neg early]
        exact .inl ⟨nofun, _, rfl, nofun⟩
    | setNick nick =>
        simp only [TrackerSession.handle, if_neg early]
        refine .inl ⟨quiet, _, rfl, ?_⟩
        split <;> nofun
    | sendLogin login password =>
        simp only [TrackerSession.handle, if_neg early, TrackerSession.sendLogin]
        split
        · exact .inl ⟨quiet, _, rfl, nofun⟩
        · split
          · exact .inl ⟨quiet, _, rfl, nofun⟩
          · split
            · exact .inl ⟨quiet, _, rfl, nofun⟩
            · exact .inr ⟨⟨login, password, rfl⟩, by simp, by simp⟩
    | sendRegister message =>
        simp only [TrackerSession.handle, if_neg early]
        cases session.account with
        | none => exact .inl ⟨quiet, _, rfl, nofun⟩
        | some account =>
            refine .inl ⟨quiet, _, rfl, ?_⟩
            cases (tracker.sendRegister _ _ _ _ message).1 <;> nofun
    | _ =>
        simp only [TrackerSession.handle, if_neg early]
        exact .inl ⟨quiet, _, rfl, nofun⟩

/-- A handler runs for the first request, when the replies of the one before have been sent. -/
theorem step_handle {found : Surroundings} (stepped : step (.handle found) state = some next)
    : state.session.state ≠ .disconnected ∧ state.session.replies = []
      ∧ ∃ message requests, state.requests = message :: requests
        ∧ next = { state with
          session := (state.session.handle found state.tracker message).1
          tracker := (state.session.handle found state.tracker message).2
          requests := requests } := by
  rw [step] at stepped
  split at stepped
  · cases stepped
  · rename_i message requests noReplies isFirst connected
    cases stepped
    exact ⟨connected, noReplies, message, requests, isFirst, rfl⟩
  · cases stepped

/-- The handler of a request leaves the registration in a phase. -/
theorem Phase.handle (phase : state.Phase registrant) {found : Surroundings}
    (stepped : step (.handle found) state = some next)
    : next.Phase registrant := by
  obtain ⟨connected, noReplies, message, requests, isFirst, rfl⟩ := step_handle stepped
  rcases phase with ⟨quiet, here, noRequest, nothing⟩ | ⟨quiet, asked, here, request, nothing⟩
    | ⟨quiet, here, noRequest, one⟩ | ⟨shielded, here, noRequest⟩ | ⟨shielded, here, only⟩ | ⟨failure, here⟩
  · rw [noRequest] at isFirst
    cases isFirst
  · have silent : state.responses = [] := (List.append_eq_nil_iff.mp nothing).1
    rw [request] at isFirst
    cases isFirst
    rcases replies_handle state.session quiet found state.tracker message
      with ⟨quiet', reply, isReply, noLogin⟩ | ⟨⟨login, password, isLogin⟩, noOkay, done⟩
    · have isStream : state.responses ++ (state.session.handle found state.tracker message).1.replies = [reply] := by
        rw [silent, isReply, List.nil_append]
      refine .answered quiet' ?_ rfl (le_of_eq (congrArg List.length isStream))
      rcases here with ⟨here, -⟩ | ⟨here, -⟩ | ⟨here, -⟩
      · exact .inl here
      · exact .inr (.inl here)
      · refine .inr (.inr ⟨here, ?_⟩)
        rw [stream, isStream, List.mem_singleton]
        exact fun same => noLogin same.symm
    · subst isLogin
      rcases here with ⟨-, same⟩ | ⟨-, same⟩ | ⟨here, -⟩
      · cases same
      · cases same
      · refine .loggedIn (.inr ⟨?_, .inl done⟩) (.inl here) rfl
        rwa [stream, silent, List.nil_append]
  · rw [noRequest] at isFirst
    cases isFirst
  · rw [noRequest] at isFirst
    cases isFirst
  · refine .registering ?_ here fun request mem => only request (isFirst ▸ List.mem_cons_of_mem _ mem)
    rcases shielded with behind | ⟨-, ends⟩
    · exact .inl behind
    · rw [noReplies] at ends
      exact (ends.elim List.not_mem_nil connected).elim
  · exact .over failure here

/-- What a session and the other threads of the tracker do to the messages under way. -/
theorem step_others {action : RegistrationAction} (stepped : step action state = some next)
    (other : (∀ sent, action ≠ .write sent) ∧ (∀ received, action ≠ .read received) ∧ ∀ found, action ≠ .handle found)
    : next.script = state.script ∧ next.requests = state.requests
      ∧ (state.IsShielded → next.IsShielded)
      ∧ (state.session.state ≠ .loggedIn → next.session.state ≠ .loggedIn ∧ next.stream.Sublist state.stream) := by
  cases action with
  | write sent => exact absurd rfl (other.1 sent)
  | read received => exact absurd rfl (other.2.1 received)
  | handle found => exact absurd rfl (other.2.2 found)
  | send =>
      rw [step] at stepped
      split at stepped
      · cases stepped
      · rename_i message replies isFirst
        cases stepped
        have same : state.responses ++ [message] ++ replies = state.stream := by
          rw [stream, isFirst, List.append_assoc, List.singleton_append]
        refine ⟨rfl, rfl, ?_, fun quiet => ⟨quiet, same ▸ List.Sublist.refl _⟩⟩
        rintro (⟨front, back, split, noOkay⟩ | ⟨noOkay, ends⟩)
        · exact .inl ⟨front, back ++ [message], by simp [split], noOkay⟩
        · by_cases isDone : message = .knownUsersDone
          · refine .inl ⟨state.responses, [], by rw [isDone], fun mem => ?_⟩
            exact noOkay (List.mem_append_left _ mem)
          · refine .inr ⟨fun mem => noOkay (same ▸ mem), ends.imp_left fun mem => ?_⟩
            rw [isFirst] at mem
            exact (List.mem_cons.mp mem).resolve_left (Ne.symm isDone)
  | sendFails =>
      rw [step] at stepped
      split at stepped
      · cases stepped
      · rename_i message replies isFirst
        cases stepped
        have less : (state.responses ++ replies).Sublist state.stream := by
          rw [stream, isFirst]
          exact (List.sublist_cons_self _ _).append_left _
        refine ⟨rfl, rfl, ?_, fun _ => ⟨nofun, less⟩⟩
        rintro (behind | ⟨noOkay, -⟩)
        · exact .inl behind
        · exact .inr ⟨fun mem => noOkay (less.subset mem), .inr rfl⟩
  | broadcast message =>
      rw [step] at stepped
      split at stepped
      · rename_i isLoggedIn
        cases stepped
        refine ⟨rfl, rfl, ?_, fun quiet => absurd isLoggedIn.1 quiet⟩
        rintro (⟨front, back, split, noOkay⟩ | ⟨noOkay, ends⟩)
        · exact .inl ⟨front, back ++ [message], by simp [split], noOkay⟩
        · refine .inr ⟨?_, ends⟩
          rw [stream, List.mem_append, not_or] at noOkay
          simp only [stream, List.mem_append, List.mem_singleton, not_or]
          exact ⟨⟨noOkay.1, fun same => isLoggedIn.2 same.symm⟩, noOkay.2⟩
      · cases stepped
  | disconnect =>
      cases stepped
      refine ⟨rfl, rfl, ?_, fun _ => ⟨nofun, List.Sublist.refl _⟩⟩
      rintro (behind | ⟨noOkay, -⟩)
      · exact .inl behind
      · exact .inr ⟨noOkay, .inr rfl⟩
  | others tracker =>
      cases stepped
      exact ⟨rfl, rfl, id, fun quiet => ⟨quiet, List.Sublist.refl _⟩⟩

/-- Every step leaves a registration in a phase. -/
theorem Phase.step (phase : state.Phase registrant) {action : RegistrationAction}
    (stepped : Registration.step action state = some next)
    : next.Phase registrant := by
  by_cases isWrite : ∃ sent, action = .write sent
  · obtain ⟨sent, rfl⟩ := isWrite
    exact phase.write stepped
  · by_cases isRead : ∃ received, action = .read received
    · obtain ⟨received, rfl⟩ := isRead
      exact phase.read stepped
    · by_cases isHandle : ∃ found, action = .handle found
      · obtain ⟨found, rfl⟩ := isHandle
        exact phase.handle stepped
      · obtain ⟨script, requests, shields, quiets⟩ := step_others stepped
          ⟨fun sent same => isWrite ⟨sent, same⟩, fun received same => isRead ⟨received, same⟩,
            fun found same => isHandle ⟨found, same⟩⟩
        rcases phase with ⟨quiet, here, noRequest, nothing⟩ | ⟨quiet, asked, here, request, nothing⟩
          | ⟨quiet, here, noRequest, one⟩ | ⟨shielded, here, noRequest⟩ | ⟨shielded, here, only⟩ | ⟨failure, here⟩
        · obtain ⟨quiet', less⟩ := quiets quiet
          rw [nothing, List.sublist_nil] at less
          exact .idle quiet' (script ▸ here) (requests.trans noRequest) less
        · obtain ⟨quiet', less⟩ := quiets quiet
          rw [nothing, List.sublist_nil] at less
          exact .asking quiet' asked (script ▸ here) (requests.trans request) less
        · obtain ⟨quiet', less⟩ := quiets quiet
          refine .answered quiet' ?_ (requests.trans noRequest) (less.length_le.trans one)
          rw [script]
          exact here.imp_right (Or.imp_right (And.imp_right fun noLogin mem => noLogin (less.subset mem)))
        · exact .loggedIn (shields shielded) (script ▸ here) (requests.trans noRequest)
        · exact .registering (shields shielded) (script.trans here) (requests ▸ only)
        · exact .over failure (script.trans here)

/-- In no phase has the program ended with a confirmation. -/
theorem Phase.unconfirmed (phase : state.Phase registrant)
    : state.script ≠ .done (.ok ()) := by
  intro confirmed
  rcases phase with ⟨-, here, -, -⟩ | ⟨-, message, here, -, -⟩ | ⟨-, here, -, -⟩ | ⟨-, here, -⟩ | ⟨-, here, -⟩
    | ⟨failure, here⟩
  · rcases here with here | here | here
    · exact nomatch confirmed.symm.trans (here.trans (script_eq registrant))
    · exact nomatch confirmed.symm.trans (here.trans (setNick_eq registrant))
    · exact nomatch confirmed.symm.trans (here.trans (logIn_eq registrant))
  · rcases here with ⟨here, -⟩ | ⟨here, -⟩ | ⟨here, -⟩
    · exact nomatch confirmed.symm.trans (here.trans (readServerInfo_eq registrant))
    · exact nomatch confirmed.symm.trans (here.trans (readNick_eq registrant))
    · exact nomatch confirmed.symm.trans (here.trans (readLogin_eq registrant))
  · rcases here with here | here | ⟨here, -⟩
    · exact nomatch confirmed.symm.trans (here.trans (readServerInfo_eq registrant))
    · exact nomatch confirmed.symm.trans (here.trans (readNick_eq registrant))
    · exact nomatch confirmed.symm.trans (here.trans (readLogin_eq registrant))
  · rcases here with here | here | here
    · exact nomatch confirmed.symm.trans (here.trans (readLogin_eq registrant))
    · exact nomatch confirmed.symm.trans (here.trans (readPrivileges_eq registrant))
    · exact nomatch confirmed.symm.trans (here.trans (register_eq registrant))
  · exact nomatch confirmed.symm.trans (here.trans readOkay_eq)
  · cases confirmed.symm.trans here

end Registration

/-- No run of a registration ends with a confirmation: the session has always something else to say first, at least
that it knows no other users, and the server reads that instead. This holds for every tracker and every change of
its accounts, settings and servers in between, whatever is lost, and whatever other threads send to the session.
-/
theorem register_neverConfirmed (registrant : Registrant) (tracker : Tracker)
    {actions : List RegistrationAction} {state : Registration}
    (ran : Machine.run Registration.step actions (.start registrant tracker) = some state)
    : state.script ≠ .done (.ok ()) := by
  have start : (Registration.start registrant tracker).Phase registrant := .idle nofun (.inl rfl) rfl rfl
  have phase : state.Phase registrant :=
    Machine.holds_of_run_always (fun _ _ _ phase stepped => phase.step stepped) ran start
  exact phase.unconfirmed

/-- An account that may register servers. -/
def registeringAccount : Account :=
  .set .empty .trackerRegisterServers true

/-- A tracker that is enabled, and has the account of the login. -/
def openTracker : Surroundings where
  enableTracker := true
  categories := []
  now := 1000000
  ip := "10.0.0.2"
  isIpv6 := false
  cipher := none
  banned := false
  account := some registeringAccount
  waiting := 0
  known := 0

/-- A server with the default port. -/
def guestRegistrant : Registrant where
  login := "guest"
  password := ""
  nick := "Wired Server"
  registration := ⟨none, "", none, some 4871, some 0, "Wired Server", "", some 0, some 0⟩

/-- A registration without any failure. -/
def acceptedRegistration : List RegistrationAction :=
  [.write true, .handle openTracker, .send, .read true,
    .write true, .handle openTracker, .send, .read true,
    .write true, .handle openTracker, .send, .send, .send, .read true, .read true,
    .write true, .handle openTracker, .send, .read true]

/-- The tracker accepts the registration of a server and lists it, and yet the server ends without a confirmation.
Its last read is the end of the known users.
-/
theorem register_neverConfirmed_accepted
    : ∃ state, Machine.run Registration.step acceptedRegistration
          (.start guestRegistrant (.loadServers .empty)) = some state
        ∧ (state.tracker.servers.row "10.0.0.2").isSome ∧ state.responses = [.okay]
        ∧ state.script ≠ .done (.ok ()) := by
  have unconfirmed {state : Registration} (ran : Machine.run Registration.step acceptedRegistration
      (.start guestRegistrant (.loadServers .empty)) = some state) : state.script ≠ .done (.ok ()) :=
    register_neverConfirmed guestRegistrant _ ran
  exact ⟨_, rfl, rfl, rfl, unconfirmed rfl⟩

end WiredServer.Server
