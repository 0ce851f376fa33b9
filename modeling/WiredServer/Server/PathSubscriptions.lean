import Mathlib
import WiredServer.Base.PathStrings
import WiredServer.Lib.Machine

/-! The subscriptions of the sessions to directories. Each is counted for the directory and for its
meta path in a set of the session and in the watcher that all sessions share. The counts follow the
subscriptions as long as they end with all of a session's at once, the system watches the paths that
are new, and it does not give out the descriptor 0 for one that is released.
-/

namespace WiredServer.Server

open PathStrings

/-- The meta path of a directory. -/
def metapath (realpath : List Char) : List Char :=
  appendPathComponent realpath ".wired".toList

/-- A meta path is longer than the path. -/
theorem length_lt_length_metapath (realpath : List Char)
    : realpath.length < (metapath realpath).length := by
  unfold metapath appendPathComponent
  split_ifs with empty slash relative root
  · simp [empty]
  · exact absurd relative (by decide)
  · simp
  · simp
  · exact absurd root (by decide)

/-- A path is not its meta path. -/
theorem metapath_ne (realpath : List Char)
    : metapath realpath ≠ realpath :=
  fun same => (length_lt_length_metapath realpath).ne' (congrArg List.length same)

/-- `wi_fsevents_t`: a counted set of paths, and the descriptors under which the system watches them,
which are 0 for all other paths
-/
@[ext]
structure FsEvents where
  paths : Multiset (List Char)
  fdsForPaths : List Char → ℕ
  tidy : ∀ path, path ∉ paths → fdsForPaths path = 0

namespace FsEvents

/-- `wi_fsevents_init` -/
def initial : FsEvents where
  paths := 0
  fdsForPaths _ := 0
  tidy _ _ := rfl

variable (fsevents : FsEvents) (path : List Char)

/-- `wi_fsevents_add_path`, given the descriptor that the system opens for the path, if it does. -/
def addPath (opened : Option ℕ) : FsEvents :=
  if path ∈ fsevents.paths then
    { fsevents with
      paths := path ::ₘ fsevents.paths
      tidy := fun other absent => fsevents.tidy other fun here =>
        absent (Multiset.mem_cons_of_mem here) }
  else
    match opened with
    | none => fsevents
    | some fd =>
        { paths := path ::ₘ fsevents.paths
          fdsForPaths := Function.update fsevents.fdsForPaths path fd
          tidy := by
            intro other absent
            obtain ⟨differs, absent⟩ := not_or.mp (Multiset.mem_cons.not.mp absent)
            rw [Function.update_of_ne differs]
            exact fsevents.tidy other absent }

/-- `wi_fsevents_remove_path` -/
def removePath : FsEvents :=
  if last : fsevents.paths.count path = 1 then
    if fsevents.fdsForPaths path = 0 then fsevents
    else
      { paths := fsevents.paths.erase path
        fdsForPaths := Function.update fsevents.fdsForPaths path 0
        tidy := by
          intro other absent
          by_cases same : other = path
          · rw [same, Function.update_self]
          · rw [Multiset.mem_erase_of_ne same] at absent
            rw [Function.update_of_ne same]
            exact fsevents.tidy other absent }
  else
    { fsevents with
      paths := fsevents.paths.erase path
      tidy := by
        intro other absent
        refine fsevents.tidy other ?_
        by_cases same : other = path
        · rw [← Multiset.count_eq_zero, same, Multiset.count_erase_self] at absent
          rw [← Multiset.count_eq_zero, same]
          omega
        · rwa [Multiset.mem_erase_of_ne same] at absent }

variable {fsevents path} {other : List Char}

/-- A path that is added counts once more if it is watched already or can be watched now. -/
theorem paths_addPath (opened : Option ℕ)
    : (fsevents.addPath path opened).paths
      = if path ∈ fsevents.paths ∨ opened.isSome then path ::ₘ fsevents.paths
        else fsevents.paths := by
  unfold addPath
  by_cases here : path ∈ fsevents.paths
  · simp only [here, true_or, if_true]
  · cases opened <;> simp [here]

/-- A path that is removed counts once less, except if it is the last time and its descriptor is 0. -/
theorem count_removePath
    : (fsevents.removePath path).paths.count other
      = if other = path ∧ ¬(fsevents.paths.count path = 1 ∧ fsevents.fdsForPaths path = 0) then
          fsevents.paths.count other - 1
        else fsevents.paths.count other := by
  unfold removePath
  by_cases same : other = path
  · subst same
    split_ifs with last zero <;> simp_all
  · split_ifs with last zero <;> simp_all [Multiset.count_erase_of_ne]

/-- A path is no longer watched when it is removed for the last time. -/
theorem fdsForPaths_removePath
    : (fsevents.removePath path).fdsForPaths other
      = if other = path ∧ fsevents.paths.count path = 1 then 0 else fsevents.fdsForPaths other := by
  unfold removePath
  by_cases same : other = path
  · subst same
    split_ifs with last zero <;> simp_all
  · split_ifs with last zero <;> simp_all [Function.update_of_ne]

/-- The order of removals does not matter. -/
instance removePath_rightCommutative : RightCommutative removePath where
  right_comm fsevents path other := by
    by_cases same : other = path
    · rw [same]
    · ext third
      · simp only [count_removePath, fdsForPaths_removePath, same, Ne.symm same, false_and, if_false]
        by_cases isPath : third = path
        · simp [isPath, Ne.symm same]
        · simp [isPath]
      · simp only [count_removePath, fdsForPaths_removePath, same, Ne.symm same, false_and, if_false]
        by_cases isPath : third = path
        · simp [isPath, Ne.symm same]
        · simp [isPath]

/-- The loops of `wd_user_unsubscribe_paths`, which remove each path of a counted set as many times as
it counts.
-/
def removePaths (fsevents : FsEvents) (paths : Multiset (List Char)) : FsEvents :=
  paths.foldl removePath fsevents

/-- No path has the descriptor 0 when it is removed for the last time. -/
def CanRemove (fsevents : FsEvents) (paths : Multiset (List Char)) : Prop :=
  ∀ path ∈ paths, fsevents.paths.count path = paths.count path → fsevents.fdsForPaths path ≠ 0

/-- A path that is removed a number of times counts less by it, but it remains if its descriptor is 0. -/
theorem count_removePaths {paths : Multiset (List Char)} (watched : paths ≤ fsevents.paths)
    : (fsevents.removePaths paths).paths.count other
      = if other ∈ paths ∧ fsevents.paths.count other = paths.count other
            ∧ fsevents.fdsForPaths other = 0 then 1
        else fsevents.paths.count other - paths.count other := by
  induction paths using Multiset.induction_on generalizing fsevents with
  | empty => simp [removePaths]
  | cons path paths ih =>
      have counts := Multiset.le_iff_count.mp watched
      have step : fsevents.removePaths (path ::ₘ paths)
          = (fsevents.removePath path).removePaths paths := Multiset.foldl_cons ..
      have fewer : paths ≤ (fsevents.removePath path).paths := by
        rw [Multiset.le_iff_count]
        intro third
        have less := counts third
        rw [count_removePath]
        by_cases same : third = path
        · subst same
          rw [Multiset.count_cons_self] at less
          split_ifs <;> omega
        · rw [Multiset.count_cons_of_ne same] at less
          rw [if_neg fun both => same both.1]
          exact less
      rw [step, ih fewer, count_removePath, fdsForPaths_removePath]
      by_cases same : other = path
      · subst same
        have less := counts other
        simp only [Multiset.count_cons_self, true_and, ← Multiset.one_le_count_iff_mem] at less ⊢
        by_cases last : fsevents.paths.count other = 1
        · have none : paths.count other = 0 := by omega
          by_cases zero : fsevents.fdsForPaths other = 0 <;> simp [last, none, zero]
        · by_cases zero : fsevents.fdsForPaths other = 0
          · simp only [last, zero, not_false_eq_true, if_true, if_false, and_true]
            split_ifs <;> omega
          · simp only [last, zero, not_false_eq_true, if_true, if_false, and_false]
            omega
      · simp only [same, Multiset.count_cons_of_ne same, Multiset.mem_cons, false_and, false_or,
          if_false]

/-- The removal of paths takes away all of them exactly when it can. -/
theorem paths_removePaths_iff {paths : Multiset (List Char)} (watched : paths ≤ fsevents.paths)
    : (fsevents.removePaths paths).paths = fsevents.paths - paths ↔ fsevents.CanRemove paths := by
  simp only [Multiset.ext, Multiset.count_sub, count_removePaths watched, CanRemove]
  constructor
  · intro same path listed last zero
    have counted := same path
    rw [if_pos ⟨listed, last, zero⟩, last, Nat.sub_self] at counted
    cases counted
  · intro can path
    rw [if_neg]
    intro ⟨listed, last, zero⟩
    exact can path listed last zero

end FsEvents

/-- The subscriptions of a `wd_user_t`: its counted set of paths, and the paths under which the client
knows the directories.
-/
structure SubscribedUser where
  subscribedPaths : Multiset (List Char)
  subscribedVirtualpaths : List Char → Option (List Char)

/-- The subscriptions of a new session. -/
def SubscribedUser.initial : SubscribedUser where
  subscribedPaths := 0
  subscribedVirtualpaths _ := none

/-- `wd_users` and `wd_files_fsevents` -/
structure Subscriptions (σ : Type) where
  users : Finset σ
  user : σ → SubscribedUser
  fsevents : FsEvents

namespace Subscriptions

variable {σ : Type} [DecidableEq σ]

/-- The server before its first session. -/
def initial : Subscriptions σ where
  users := ∅
  user _ := .initial
  fsevents := .initial

-- `watching` says whether `wd_files_fsevents` could be made, and `opened` what the system answers when
-- it is to watch a path.
variable (watching : Bool) (subscriptions : Subscriptions σ) (user : σ)
variable (path realpath : List Char) (opened : List Char → Option ℕ)

/-- `wd_user_subscribe_path` -/
def subscribePath : Subscriptions σ :=
  let own := subscriptions.user user
  { subscriptions with
    user := Function.update subscriptions.user user
      { subscribedPaths := metapath realpath ::ₘ realpath ::ₘ own.subscribedPaths
        subscribedVirtualpaths := Function.update own.subscribedVirtualpaths realpath (some path) }
    fsevents :=
      if watching then
        (subscriptions.fsevents.addPath realpath (opened realpath)).addPath (metapath realpath)
          (opened (metapath realpath))
      else subscriptions.fsevents }

/-- `wd_user_unsubscribe_path`, which adds the meta path again -/
def unsubscribePath : Subscriptions σ :=
  let own := subscriptions.user user
  { subscriptions with
    user := Function.update subscriptions.user user
      { subscribedPaths := metapath realpath ::ₘ own.subscribedPaths.erase realpath
        subscribedVirtualpaths := Function.update own.subscribedVirtualpaths realpath none }
    fsevents :=
      if watching then
        (subscriptions.fsevents.removePath realpath).addPath (metapath realpath)
          (opened (metapath realpath))
      else subscriptions.fsevents }

/-- Only the user changes whose subscription ends. -/
theorem user_unsubscribePath
    : (subscriptions.unsubscribePath watching user realpath opened).user
      = Function.update subscriptions.user user
        { subscribedPaths := metapath realpath
            ::ₘ (subscriptions.user user).subscribedPaths.erase realpath
          subscribedVirtualpaths :=
            Function.update (subscriptions.user user).subscribedVirtualpaths realpath none } :=
  rfl

/-- `wd_user_unsubscribe_paths` -/
def unsubscribePaths : Subscriptions σ :=
  let own := subscriptions.user user
  { subscriptions with
    user := Function.update subscriptions.user user .initial
    fsevents :=
      if watching then subscriptions.fsevents.removePaths own.subscribedPaths
      else subscriptions.fsevents }

/-- `wd_message_file_subscribe_directory`: `listFiles` is the privilege of the account, and `found` says
whether there is a file at the real path
-/
def messageFileSubscribeDirectory (listFiles found : Bool) : Except String (Subscriptions σ) :=
  if !listFiles then .error "wired.error.permission_denied"
  else if !found then .error "wired.error.file_not_found"
  else .ok (subscriptions.subscribePath watching user path realpath opened)

/-- `wd_message_file_unsubscribe_directory` -/
def messageFileUnsubscribeDirectory (listFiles found : Bool) : Except String (Subscriptions σ) :=
  if !listFiles then .error "wired.error.permission_denied"
  else if !found then .error "wired.error.file_not_found"
  else if realpath ∉ (subscriptions.user user).subscribedPaths then
    .error "wired.error.not_subscribed"
  else .ok (subscriptions.unsubscribePath watching user realpath opened)

/-- What `wd_files_fsevents_callback` does for a user, if there is no directory at the path any more. -/
def filesFseventsCallbackForUser (isLoggedIn : σ → Bool) (opened : σ → List Char → Option ℕ)
    (subscriptions : Subscriptions σ) (user : σ) : Subscriptions σ :=
  if isLoggedIn user && path ∈ (subscriptions.user user).subscribedPaths then
    subscriptions.unsubscribePath watching user path (opened user)
  else subscriptions

/-- `wd_files_fsevents_callback`, with the users in the order of `wd_users` -/
def filesFseventsCallback (order : List σ) (isDirectory : Bool) (isLoggedIn : σ → Bool)
    (opened : σ → List Char → Option ℕ) : Subscriptions σ :=
  if isDirectory then subscriptions
  else order.foldl (filesFseventsCallbackForUser watching path isLoggedIn opened) subscriptions

/-- What `wd_accounts_reload_account` does to the subscriptions of a user whose account was
changed.
-/
def reloadAccount (listFiles : Bool) : Subscriptions σ :=
  if !listFiles && (subscriptions.user user).subscribedPaths ≠ 0 then
    subscriptions.unsubscribePaths watching user
  else subscriptions

/-- `wd_users_add_user` -/
def addUser : Subscriptions σ :=
  { subscriptions with
    users := insert user subscriptions.users
    user := Function.update subscriptions.user user .initial }

/-- `wd_users_remove_user` -/
def removeUser : Subscriptions σ :=
  let subscriptions := subscriptions.unsubscribePaths watching user
  { subscriptions with users := subscriptions.users.erase user }

end Subscriptions

/-- What changes the subscriptions. -/
inductive SubscriptionAction (σ : Type) where
  | addUser (user : σ)
  | subscribeDirectory (user : σ) (listFiles found : Bool) (path realpath : List Char)
      (opened : List Char → Option ℕ)
  | unsubscribeDirectory (user : σ) (listFiles found : Bool) (realpath : List Char)
      (opened : List Char → Option ℕ)
  | fseventsCallback (path : List Char) (order : List σ) (isDirectory : Bool)
      (isLoggedIn : σ → Bool) (opened : σ → List Char → Option ℕ)
  | reloadAccount (user : σ) (listFiles : Bool)
  | removeUser (user : σ)

namespace SubscriptionAction

variable {σ : Type} [DecidableEq σ]

/-- The sessions that act are there, and the callback goes through all of them. -/
def isPossible (users : Finset σ) : SubscriptionAction σ → Bool
  | addUser user => user ∉ users
  | subscribeDirectory user .. | unsubscribeDirectory user .. | reloadAccount user _
  | removeUser user => user ∈ users
  | fseventsCallback _ order .. => order.Nodup && order.toFinset = users

/-- An action on the subscriptions. Requests that fail leave them as they are. -/
def apply (watching : Bool) (subscriptions : Subscriptions σ)
    : SubscriptionAction σ → Subscriptions σ
  | addUser user => subscriptions.addUser user
  | subscribeDirectory user listFiles found path realpath opened =>
      (subscriptions.messageFileSubscribeDirectory watching user path realpath opened listFiles
        found).toOption.getD subscriptions
  | unsubscribeDirectory user listFiles found realpath opened =>
      (subscriptions.messageFileUnsubscribeDirectory watching user realpath opened listFiles
        found).toOption.getD subscriptions
  | fseventsCallback path order isDirectory isLoggedIn opened =>
      subscriptions.filesFseventsCallback watching path order isDirectory isLoggedIn opened
  | reloadAccount user listFiles => subscriptions.reloadAccount watching user listFiles
  | removeUser user => subscriptions.removeUser watching user

end SubscriptionAction

/-- The step of the server that an action is. -/
def stepSubscriptions {σ : Type} [DecidableEq σ] (watching : Bool) (action : SubscriptionAction σ)
    (subscriptions : Subscriptions σ) : Option (Subscriptions σ) :=
  if action.isPossible subscriptions.users then some (action.apply watching subscriptions) else none

/-- What the subscriptions are for: which directories each session has subscribed to, and how often. -/
structure Subscribers (σ : Type) where
  users : Finset σ
  directories : σ → Multiset (List Char)

namespace Subscribers

variable {σ : Type} [DecidableEq σ]

/-- There are no sessions at first. -/
def initial : Subscribers σ where
  users := ∅
  directories _ := 0

/-- A session with other directories. -/
def withDirectories (subscribers : Subscribers σ) (user : σ) (directories : Multiset (List Char))
    : Subscribers σ :=
  { subscribers with directories := Function.update subscribers.directories user directories }

/-- What an action is meant to do: it subscribes to a directory, ends a subscription to one, or ends
all subscriptions of a session.
-/
def apply (subscribers : Subscribers σ) : SubscriptionAction σ → Subscribers σ
  | .addUser user =>
      { subscribers.withDirectories user 0 with users := insert user subscribers.users }
  | .subscribeDirectory user listFiles found _ realpath _ =>
      if listFiles && found then
        subscribers.withDirectories user (realpath ::ₘ subscribers.directories user)
      else subscribers
  | .unsubscribeDirectory user listFiles found realpath _ =>
      if listFiles && found then
        subscribers.withDirectories user ((subscribers.directories user).erase realpath)
      else subscribers
  | .fseventsCallback path _ isDirectory isLoggedIn _ =>
      { subscribers with
        directories := fun user =>
          if !isDirectory && isLoggedIn user then (subscribers.directories user).erase path
          else subscribers.directories user }
  | .reloadAccount user listFiles =>
      if !listFiles then subscribers.withDirectories user 0 else subscribers
  | .removeUser user =>
      { subscribers.withDirectories user 0 with users := subscribers.users.erase user }

/-- The paths that count for subscriptions: the directories and their meta paths. -/
def paths (directories : Multiset (List Char)) : Multiset (List Char) :=
  directories + directories.map metapath

variable (subscribers : Subscribers σ) {user : σ} {held : Multiset (List Char)}

/-- The paths that count for all sessions together. -/
def total : Multiset (List Char) :=
  ∑ user ∈ subscribers.users, paths (subscribers.directories user)

/-- The paths that count for the sessions other than one. -/
def totalWithout (user : σ) : Multiset (List Char) :=
  ∑ other ∈ subscribers.users.erase user, paths (subscribers.directories other)

variable {subscribers}

/-- The paths of all sessions are those of one and those of the others. -/
theorem total_eq_add_totalWithout (here : user ∈ subscribers.users)
    : subscribers.total = paths (subscribers.directories user) + subscribers.totalWithout user :=
  (Finset.add_sum_erase _ _ here).symm

/-- The paths of the others stay when a session has other directories. -/
@[simp]
theorem totalWithout_withDirectories
    : (subscribers.withDirectories user held).totalWithout user = subscribers.totalWithout user := by
  refine Finset.sum_congr rfl fun other mem => ?_
  exact congrArg paths (Function.update_of_ne (Finset.ne_of_mem_erase mem) ..)

/-- Nothing changes when a session keeps its directories. -/
theorem withDirectories_self
    : subscribers.withDirectories user (subscribers.directories user) = subscribers := by
  rw [withDirectories, Function.update_eq_self]

/-- The directories of a session are those that it was given. -/
@[simp]
theorem directories_withDirectories
    : (subscribers.withDirectories user held).directories user = held :=
  Function.update_self ..

/-- The paths of all sessions, after one has other directories. -/
theorem total_withDirectories (here : user ∈ subscribers.users)
    : (subscribers.withDirectories user held).total = paths held + subscribers.totalWithout user := by
  have here' : user ∈ (subscribers.withDirectories user held).users := here
  rw [total_eq_add_totalWithout here', totalWithout_withDirectories, directories_withDirectories]

/-- A directory counts with its meta path. -/
@[simp]
theorem paths_cons (realpath : List Char)
    : paths (realpath ::ₘ held) = metapath realpath ::ₘ realpath ::ₘ paths held := by
  simp only [paths, Multiset.map_cons, Multiset.cons_add, Multiset.add_cons]

/-- No directory, no path. -/
@[simp]
theorem paths_zero
    : paths 0 = 0 :=
  rfl

/-- There are twice as many paths as directories. -/
theorem card_paths
    : (paths held).card = 2 * held.card := by
  rw [paths, Multiset.card_add, Multiset.card_map, two_mul]

/-- Without paths there are no directories. -/
theorem paths_eq_zero_iff
    : paths held = 0 ↔ held = 0 := by
  rw [← Multiset.card_eq_zero, card_paths, ← Multiset.card_eq_zero]
  omega

/-- A directory is one of its paths. -/
theorem mem_paths {realpath : List Char} (mem : realpath ∈ held)
    : realpath ∈ paths held :=
  Multiset.mem_add.mpr (.inl mem)

/-- What the removal of a path and the addition of its meta path leave are not the paths without a
directory.
-/
theorem cons_erase_ne_paths_erase {path : List Char} (listed : path ∈ paths held)
    : metapath path ::ₘ (paths held).erase path ≠ paths (held.erase path) := by
  intro same
  by_cases mem : path ∈ held
  · -- there are as many paths as before, but a directory is gone
    have cards := congrArg Multiset.card same
    rw [Multiset.card_cons, Multiset.card_erase_of_mem listed, card_paths, card_paths,
      Multiset.card_erase_of_mem mem] at cards
    have some := Multiset.card_pos_iff_exists_mem.mpr ⟨path, mem⟩
    simp only [Nat.pred_eq_sub_one] at cards
    omega
  · -- the meta path counts once more, but the directories are the same
    have counts := congrArg (Multiset.count (metapath path)) same
    rw [Multiset.erase_of_notMem mem, Multiset.count_cons_self,
      Multiset.count_erase_of_ne (metapath_ne path)] at counts
    omega

/-- The last directories that a session is given count. -/
@[simp]
theorem withDirectories_withDirectories {first : Multiset (List Char)}
    : (subscribers.withDirectories user first).withDirectories user held
      = subscribers.withDirectories user held := by
  simp only [withDirectories, Function.update_idem]

end Subscribers

/-- What an action is meant to do, where it is possible. -/
def stepSubscribers {σ : Type} [DecidableEq σ] (action : SubscriptionAction σ)
    (subscribers : Subscribers σ) : Option (Subscribers σ) :=
  if action.isPossible subscribers.users then some (subscribers.apply action) else none

section Balance

variable {σ : Type} [DecidableEq σ] (watching : Bool)

/-- The counts follow the subscriptions: a session's set has its directories with their meta paths,
the watcher counts a path as often as it is in the sets of all sessions, and it watches nothing when
no session has subscriptions.
-/
structure IsBalanced (subscriptions : Subscriptions σ) (subscribers : Subscribers σ) : Prop where
  users : subscriptions.users = subscribers.users
  sets : ∀ user ∈ subscribers.users, (subscriptions.user user).subscribedPaths
    = subscribers.directories user + (subscribers.directories user).map metapath
  counts : watching → ∀ path, subscriptions.fsevents.paths.count path
    = ∑ user ∈ subscribers.users, (subscriptions.user user).subscribedPaths.count path
  idle : watching → (∀ user ∈ subscribers.users, subscribers.directories user = 0) → ∀ path,
    path ∉ subscriptions.fsevents.paths ∧ subscriptions.fsevents.fdsForPaths path = 0

/-- The watches of the paths that are new are added. -/
def CanWatch (subscriptions : Subscriptions σ) (realpath : List Char)
    (opened : List Char → Option ℕ) : Prop :=
  (realpath ∈ subscriptions.fsevents.paths ∨ (opened realpath).isSome)
  ∧ (metapath realpath ∈ subscriptions.fsevents.paths ∨ (opened (metapath realpath)).isSome)

/-- No subscription ends on its own, the system watches the paths that are new, and it does not watch
a path under the descriptor 0 that is removed for the last time.
-/
def KeepsBalance : SubscriptionAction σ → Subscriptions σ → Prop
  | .addUser _, _ => True
  | .subscribeDirectory _ listFiles found _ realpath opened, subscriptions =>
      watching → listFiles → found → CanWatch subscriptions realpath opened
  | .unsubscribeDirectory user listFiles found realpath _, subscriptions =>
      listFiles → found → realpath ∉ (subscriptions.user user).subscribedPaths
  | .fseventsCallback path order isDirectory isLoggedIn _, subscriptions =>
      isDirectory = false → ∀ user ∈ order, isLoggedIn user →
        path ∉ (subscriptions.user user).subscribedPaths
  | .reloadAccount user listFiles, subscriptions =>
      watching → listFiles = false →
        subscriptions.fsevents.CanRemove (subscriptions.user user).subscribedPaths
  | .removeUser user, subscriptions =>
      watching → subscriptions.fsevents.CanRemove (subscriptions.user user).subscribedPaths

variable {watching} {subscriptions next : Subscriptions σ} {subscribers next' : Subscribers σ}
variable {user : σ}

omit [DecidableEq σ] in
/-- The counts follow the subscriptions if the watcher counts what all sessions count together. -/
theorem isBalanced_iff
    : IsBalanced watching subscriptions subscribers
      ↔ subscriptions.users = subscribers.users
        ∧ (∀ user ∈ subscribers.users, (subscriptions.user user).subscribedPaths
          = Subscribers.paths (subscribers.directories user))
        ∧ (watching → subscriptions.fsevents.paths = subscribers.total) := by
  constructor
  · intro balanced
    refine ⟨balanced.users, balanced.sets, fun isWatching => ?_⟩
    ext path
    rw [balanced.counts isWatching, Subscribers.total, Multiset.count_sum']
    refine Finset.sum_congr rfl fun user here => ?_
    rw [balanced.sets user here, Subscribers.paths]
  · rintro ⟨users, sets, total⟩
    constructor
    case users => exact users
    case sets => exact sets
    case counts =>
      intro isWatching path
      rw [total isWatching, Subscribers.total, Multiset.count_sum']
      exact Finset.sum_congr rfl fun user here => by rw [sets user here]
    case idle =>
      intro isWatching noDirectories path
      have none : path ∉ subscriptions.fsevents.paths := by
        rw [total isWatching, Subscribers.total, Finset.sum_eq_zero]
        · exact Multiset.notMem_zero path
        · intro user here
          rw [noDirectories user here, Subscribers.paths_zero]
      exact ⟨none, subscriptions.fsevents.tidy path none⟩

/-- When one session changes, the balance is that of its set and of the watcher. -/
theorem isBalanced_withDirectories_iff
    (balanced : IsBalanced watching subscriptions subscribers) (here : user ∈ subscribers.users)
    (next : Subscriptions σ) (own : SubscribedUser) (held : Multiset (List Char))
    (users : next.users = subscriptions.users)
    (changed : next.user = Function.update subscriptions.user user own)
    : IsBalanced watching next (subscribers.withDirectories user held)
      ↔ own.subscribedPaths = Subscribers.paths held
        ∧ (watching → next.fsevents.paths
          = Subscribers.paths held + subscribers.totalWithout user) := by
  obtain ⟨same, sets, _⟩ := isBalanced_iff.mp balanced
  rw [isBalanced_iff, Subscribers.total_withDirectories here, users]
  constructor
  · rintro ⟨_, sets', total'⟩
    have set := sets' user here
    rw [changed, Function.update_self, Subscribers.directories_withDirectories] at set
    exact ⟨set, total'⟩
  · rintro ⟨set, total'⟩
    refine ⟨same, fun other there => ?_, total'⟩
    by_cases isUser : other = user
    · rw [isUser, changed, Function.update_self, Subscribers.directories_withDirectories]
      exact set
    · rw [changed, Function.update_of_ne isUser, sets other there]
      exact congrArg Subscribers.paths (Function.update_of_ne isUser ..).symm

omit [DecidableEq σ] in
/-- Two paths that are added count once more each exactly when they can be watched. -/
theorem paths_addPath_addPath_iff {realpath : List Char} {opened : List Char → Option ℕ}
    : ((subscriptions.fsevents.addPath realpath (opened realpath)).addPath (metapath realpath)
          (opened (metapath realpath))).paths
        = metapath realpath ::ₘ realpath ::ₘ subscriptions.fsevents.paths
      ↔ CanWatch subscriptions realpath opened := by
  have differ := metapath_ne realpath
  rw [FsEvents.paths_addPath, FsEvents.paths_addPath, CanWatch]
  by_cases first : realpath ∈ subscriptions.fsevents.paths ∨ (opened realpath).isSome
  · simp only [first, if_true, Multiset.mem_cons, differ, false_or, true_and]
    by_cases second : metapath realpath ∈ subscriptions.fsevents.paths
        ∨ (opened (metapath realpath)).isSome
    · simp only [second, if_true]
    · simp only [second, if_false, iff_false]
      intro same
      have cards := congrArg Multiset.card same
      simp only [Multiset.card_cons] at cards
      omega
  · simp only [first, if_false, false_and, iff_false]
    intro same
    have cards := congrArg Multiset.card same
    split_ifs at cards <;> simp only [Multiset.card_cons] at cards <;> omega

/-- A new subscription keeps the balance exactly when its paths can be watched. -/
theorem isBalanced_subscribePath_iff {path realpath : List Char}
    {opened : List Char → Option ℕ} (balanced : IsBalanced watching subscriptions subscribers)
    (here : user ∈ subscribers.users)
    : IsBalanced watching (subscriptions.subscribePath watching user path realpath opened)
        (subscribers.withDirectories user (realpath ::ₘ subscribers.directories user))
      ↔ (watching → CanWatch subscriptions realpath opened) := by
  obtain ⟨_, sets, total⟩ := isBalanced_iff.mp balanced
  refine (isBalanced_withDirectories_iff balanced here
    (subscriptions.subscribePath watching user path realpath opened) _ _ rfl rfl).trans ?_
  rw [Subscribers.paths_cons, sets user here, and_iff_right rfl]
  refine imp_congr_right fun isWatching => ?_
  rw [← paths_addPath_addPath_iff, total isWatching, Subscribers.total_eq_add_totalWithout here,
    Multiset.cons_add, Multiset.cons_add, Subscriptions.subscribePath, if_pos isWatching]

/-- The end of one subscription never keeps the balance. -/
theorem not_isBalanced_unsubscribePath {realpath : List Char} {opened : List Char → Option ℕ}
    (balanced : IsBalanced watching subscriptions subscribers) (here : user ∈ subscribers.users)
    (listed : realpath ∈ (subscriptions.user user).subscribedPaths)
    : ¬IsBalanced watching (subscriptions.unsubscribePath watching user realpath opened)
        (subscribers.withDirectories user ((subscribers.directories user).erase realpath)) := by
  intro after
  have set := ((isBalanced_withDirectories_iff balanced here
    (subscriptions.unsubscribePath watching user realpath opened) _ _ rfl rfl).mp after).1
  dsimp only at set
  rw [(isBalanced_iff.mp balanced).2.1 user here] at set listed
  exact Subscribers.cons_erase_ne_paths_erase listed set

/-- The watcher counts what the other sessions count, after the paths of one were removed, exactly when
they could be.
-/
theorem paths_removePaths_eq_iff (balanced : IsBalanced watching subscriptions subscribers)
    (here : user ∈ subscribers.users) (isWatching : watching)
    : (subscriptions.fsevents.removePaths (subscriptions.user user).subscribedPaths).paths
        = subscribers.totalWithout user
      ↔ subscriptions.fsevents.CanRemove (subscriptions.user user).subscribedPaths := by
  obtain ⟨_, sets, total⟩ := isBalanced_iff.mp balanced
  have whole : subscriptions.fsevents.paths
      = (subscriptions.user user).subscribedPaths + subscribers.totalWithout user := by
    rw [total isWatching, sets user here]
    exact Subscribers.total_eq_add_totalWithout here
  have watched : (subscriptions.user user).subscribedPaths ≤ subscriptions.fsevents.paths := by
    rw [whole]
    exact Multiset.le_add_right ..
  rw [← FsEvents.paths_removePaths_iff watched, whole, add_tsub_cancel_left]

/-- The end of all subscriptions of a session keeps the balance exactly when its paths can be
removed.
-/
theorem isBalanced_unsubscribePaths_iff
    (balanced : IsBalanced watching subscriptions subscribers) (here : user ∈ subscribers.users)
    : IsBalanced watching (subscriptions.unsubscribePaths watching user)
        (subscribers.withDirectories user 0)
      ↔ (watching →
        subscriptions.fsevents.CanRemove (subscriptions.user user).subscribedPaths) := by
  refine (isBalanced_withDirectories_iff balanced here
    (subscriptions.unsubscribePaths watching user) _ _ rfl rfl).trans ?_
  rw [Subscribers.paths_zero, zero_add, and_iff_right (by rfl)]
  refine imp_congr_right fun isWatching => ?_
  rw [← paths_removePaths_eq_iff balanced here isWatching, Subscriptions.unsubscribePaths,
    if_pos isWatching]

/-- A new session keeps the balance. -/
theorem isBalanced_addUser (balanced : IsBalanced watching subscriptions subscribers)
    (new : user ∉ subscribers.users)
    : IsBalanced watching (subscriptions.addUser user) (subscribers.apply (.addUser user)) := by
  obtain ⟨users, sets, total⟩ := isBalanced_iff.mp balanced
  have others : ∀ other ∈ subscribers.users,
      (subscribers.apply (.addUser user)).directories other = subscribers.directories other :=
    fun other there => Function.update_of_ne (ne_of_mem_of_not_mem there new) ..
  have own : (subscribers.apply (.addUser user)).directories user = 0 := Function.update_self ..
  have concrete : (subscriptions.addUser user).user
    = Function.update subscriptions.user user .initial := rfl
  refine isBalanced_iff.mpr ⟨congrArg (insert user) users, ?_, fun isWatching => ?_⟩
  · intro other there
    by_cases isUser : other = user
    · rw [isUser, own, concrete, Function.update_self]
      rfl
    · have there := Finset.mem_of_mem_insert_of_ne there isUser
      rw [others other there, ← sets other there, concrete, Function.update_of_ne isUser]
  · refine (total isWatching).trans ?_
    have sum := Finset.sum_congr rfl fun other there =>
      congrArg Subscribers.paths (others other there)
    refine sum.symm.trans ((Finset.sum_insert new).trans ?_).symm
    rw [own, Subscribers.paths_zero, zero_add]

/-- The end of a session keeps the balance exactly when its paths can be removed. -/
theorem isBalanced_removeUser_iff (balanced : IsBalanced watching subscriptions subscribers)
    (here : user ∈ subscribers.users)
    : IsBalanced watching (subscriptions.removeUser watching user)
        (subscribers.apply (.removeUser user))
      ↔ (watching →
        subscriptions.fsevents.CanRemove (subscriptions.user user).subscribedPaths) := by
  obtain ⟨users, sets, _⟩ := isBalanced_iff.mp balanced
  have total : (subscribers.apply (.removeUser user)).total = subscribers.totalWithout user :=
    Subscribers.totalWithout_withDirectories
  rw [isBalanced_iff, total]
  have watcher : ((subscriptions.removeUser watching user).users
        = (subscribers.apply (.removeUser user)).users
      ∧ ∀ other ∈ (subscribers.apply (.removeUser user)).users,
        ((subscriptions.removeUser watching user).user other).subscribedPaths
          = Subscribers.paths ((subscribers.apply (.removeUser user)).directories other)) := by
    refine ⟨congrArg (Finset.erase · user) users, fun other there => ?_⟩
    obtain ⟨differs, there⟩ := Finset.mem_erase.mp there
    have concrete : (subscriptions.removeUser watching user).user other
      = subscriptions.user other := Function.update_of_ne differs ..
    have abstract' : (subscribers.apply (.removeUser user)).directories other
      = subscribers.directories other := Function.update_of_ne differs ..
    rw [concrete, abstract', sets other there]
  rw [← and_assoc, and_iff_right watcher]
  refine imp_congr_right fun isWatching => ?_
  rw [← paths_removePaths_eq_iff balanced here isWatching, Subscriptions.removeUser,
    Subscriptions.unsubscribePaths]
  dsimp only
  rw [if_pos isWatching]

section Callback

variable {path : List Char} {isLoggedIn : σ → Bool} {opened : σ → List Char → Option ℕ}

/-- The callback passes over users who have not subscribed to the path. -/
theorem foldl_callback_of_forall {order : List σ}
    (none : ∀ user ∈ order, isLoggedIn user → path ∉ (subscriptions.user user).subscribedPaths)
    : order.foldl
        (Subscriptions.filesFseventsCallbackForUser watching path isLoggedIn opened) subscriptions
      = subscriptions := by
  induction order with
  | nil => rfl
  | cons first order ih =>
      have pass : Subscriptions.filesFseventsCallbackForUser watching path isLoggedIn opened
          subscriptions first = subscriptions := by
        refine if_neg fun both => ?_
        obtain ⟨loggedIn, listed⟩ := Bool.and_eq_true_iff.mp both
        exact none first List.mem_cons_self loggedIn (of_decide_eq_true listed)
      rw [List.foldl_cons, pass]
      exact ih fun user later => none user (List.mem_cons_of_mem _ later)

/-- The callback leaves the users alone through whom it does not go. -/
theorem foldl_callback_of_notMem {order : List σ} (absent : user ∉ order)
    : (order.foldl
        (Subscriptions.filesFseventsCallbackForUser watching path isLoggedIn opened)
          subscriptions).user user
      = subscriptions.user user := by
  induction order generalizing subscriptions with
  | nil => rfl
  | cons first order ih =>
      obtain ⟨differs, absent⟩ := not_or.mp (List.mem_cons.not.mp absent)
      rw [List.foldl_cons, ih absent, Subscriptions.filesFseventsCallbackForUser]
      split
      · exact Function.update_of_ne differs ..
      · rfl

/-- The callback ends the subscription of a user who is logged in and has subscribed to the path. -/
theorem foldl_callback_of_mem {order : List σ} (distinct : order.Nodup) (mem : user ∈ order)
    (loggedIn : isLoggedIn user) (listed : path ∈ (subscriptions.user user).subscribedPaths)
    : ((order.foldl
        (Subscriptions.filesFseventsCallbackForUser watching path isLoggedIn opened)
          subscriptions).user user).subscribedPaths
      = metapath path ::ₘ (subscriptions.user user).subscribedPaths.erase path := by
  induction order generalizing subscriptions with
  | nil => cases mem
  | cons first order ih =>
      obtain ⟨absent, distinct⟩ := List.nodup_cons.mp distinct
      rw [List.foldl_cons]
      rcases List.mem_cons.mp mem with rfl | later
      · have both : (isLoggedIn user
            && path ∈ (subscriptions.user user).subscribedPaths) = true := by
          rw [loggedIn, decide_eq_true listed]
          rfl
        rw [foldl_callback_of_notMem absent, Subscriptions.filesFseventsCallbackForUser, if_pos both,
          Subscriptions.user_unsubscribePath, Function.update_self]
      · have same : (Subscriptions.filesFseventsCallbackForUser watching path isLoggedIn opened
            subscriptions first).user user = subscriptions.user user := by
          rw [Subscriptions.filesFseventsCallbackForUser]
          split
          · exact Function.update_of_ne (ne_of_mem_of_not_mem later absent) ..
          · rfl
        have listed' := listed
        rw [← same] at listed'
        rw [ih distinct later listed', same]

/-- A change of a path keeps the balance exactly when it ends no subscription. -/
theorem isBalanced_filesFseventsCallback_iff {order : List σ} {isDirectory : Bool}
    (balanced : IsBalanced watching subscriptions subscribers)
    (distinct : order.Nodup) (all : order.toFinset = subscribers.users)
    : IsBalanced watching
        (subscriptions.filesFseventsCallback watching path order isDirectory isLoggedIn opened)
        (subscribers.apply (.fseventsCallback path order isDirectory isLoggedIn opened))
      ↔ KeepsBalance watching (.fseventsCallback path order isDirectory isLoggedIn opened)
        subscriptions := by
  obtain ⟨users, sets, total⟩ := isBalanced_iff.mp balanced
  constructor
  · intro after gone user inOrder loggedIn listed
    have here : user ∈ subscribers.users := all ▸ List.mem_toFinset.mpr inOrder
    have set := (isBalanced_iff.mp after).2.1 user here
    rw [Subscriptions.filesFseventsCallback, gone, if_neg Bool.false_ne_true,
      foldl_callback_of_mem distinct inOrder loggedIn listed, Subscribers.apply] at set
    dsimp only at set
    rw [loggedIn, Bool.not_false, Bool.true_and, if_pos rfl, sets user here] at set
    rw [sets user here] at listed
    exact Subscribers.cons_erase_ne_paths_erase listed set
  · intro none
    cases isDirectory with
    | true => exact balanced
    | false =>
        rw [Subscriptions.filesFseventsCallback, if_neg Bool.false_ne_true,
          foldl_callback_of_forall (none rfl)]
        have same : ∀ user ∈ subscribers.users, (subscribers.apply
            (.fseventsCallback path order false isLoggedIn opened)).directories user
              = subscribers.directories user := by
          intro user here
          have inOrder : user ∈ order := List.mem_toFinset.mp (all ▸ here)
          simp only [Subscribers.apply, Bool.not_false, Bool.true_and]
          split
          · rename_i loggedIn
            have absent := none rfl user inOrder loggedIn
            rw [sets user here] at absent
            exact Multiset.erase_of_notMem fun mem => absent (Subscribers.mem_paths mem)
          · rfl
        refine isBalanced_iff.mpr ⟨users, fun user here => ?_, fun isWatching => ?_⟩
        · rw [same user here]
          exact sets user here
        · rw [total isWatching]
          exact Finset.sum_congr rfl fun user here =>
            congrArg Subscribers.paths (same user here).symm

end Callback

/-- A request to end a subscription keeps the balance exactly when it fails. -/
theorem isBalanced_unsubscribeDirectory_iff {listFiles found : Bool} {realpath : List Char}
    {opened : List Char → Option ℕ} (balanced : IsBalanced watching subscriptions subscribers)
    (here : user ∈ subscribers.users)
    : IsBalanced watching
        (SubscriptionAction.apply watching subscriptions
          (.unsubscribeDirectory user listFiles found realpath opened))
        (subscribers.apply (.unsubscribeDirectory user listFiles found realpath opened))
      ↔ KeepsBalance watching (.unsubscribeDirectory user listFiles found realpath opened)
        subscriptions := by
  obtain ⟨_, sets, _⟩ := isBalanced_iff.mp balanced
  cases listFiles with
  | false => exact iff_of_true balanced nofun
  | true =>
      cases found with
      | false => exact iff_of_true balanced fun _ => nofun
      | true =>
          by_cases listed : realpath ∈ (subscriptions.user user).subscribedPaths
          · refine iff_of_false ?_ fun fails => fails rfl rfl listed
            have ends : SubscriptionAction.apply watching subscriptions
                (.unsubscribeDirectory user true true realpath opened)
                = subscriptions.unsubscribePath watching user realpath opened := by
              simp [SubscriptionAction.apply, Subscriptions.messageFileUnsubscribeDirectory, listed,
                Except.toOption]
            rw [ends]
            exact not_isBalanced_unsubscribePath balanced here listed
          · refine iff_of_true ?_ fun _ _ => listed
            have fails : SubscriptionAction.apply watching subscriptions
                (.unsubscribeDirectory user true true realpath opened) = subscriptions := by
              simp [SubscriptionAction.apply, Subscriptions.messageFileUnsubscribeDirectory, listed,
                Except.toOption]
            have absent : realpath ∉ subscribers.directories user := fun mem =>
              listed (sets user here ▸ Subscribers.mem_paths mem)
            have same : subscribers.apply (.unsubscribeDirectory user true true realpath opened)
                = subscribers := by
              change subscribers.withDirectories user _ = _
              rw [Multiset.erase_of_notMem absent, Subscribers.withDirectories_self]
            rw [fails, same]
            exact balanced

/-- A change of an account keeps the balance exactly when the paths of a user who loses the privilege
can be removed.
-/
theorem isBalanced_reloadAccount_iff {listFiles : Bool}
    (balanced : IsBalanced watching subscriptions subscribers) (here : user ∈ subscribers.users)
    : IsBalanced watching (subscriptions.reloadAccount watching user listFiles)
        (subscribers.apply (.reloadAccount user listFiles))
      ↔ KeepsBalance watching (.reloadAccount user listFiles) subscriptions := by
  cases listFiles with
  | true => exact iff_of_true balanced fun _ => nofun
  | false =>
      by_cases none : (subscriptions.user user).subscribedPaths = 0
      · have reloaded : subscriptions.reloadAccount watching user false = subscriptions := by
          simp [Subscriptions.reloadAccount, none]
        have same : subscribers.apply (.reloadAccount user false) = subscribers := by
          change subscribers.withDirectories user 0 = _
          rw [← Subscribers.paths_eq_zero_iff.mp
            (((isBalanced_iff.mp balanced).2.1 user here).symm.trans none),
            Subscribers.withDirectories_self]
        rw [reloaded, same]
        refine iff_of_true balanced fun _ _ path listed => ?_
        rw [none] at listed
        exact absurd listed (Multiset.notMem_zero path)
      · have reloaded : subscriptions.reloadAccount watching user false
            = subscriptions.unsubscribePaths watching user := by
          simp [Subscriptions.reloadAccount, none]
        rw [reloaded]
        refine (isBalanced_unsubscribePaths_iff balanced here).trans ?_
        exact imp_congr_right fun _ => ⟨fun can _ => can, fun can => can rfl⟩

/-- An action keeps the balance exactly when it meets the conditions. -/
theorem isBalanced_apply_iff {action : SubscriptionAction σ}
    (balanced : IsBalanced watching subscriptions subscribers)
    (possible : action.isPossible subscribers.users)
    : IsBalanced watching (action.apply watching subscriptions) (subscribers.apply action)
      ↔ KeepsBalance watching action subscriptions := by
  cases action with
  | addUser user =>
      exact iff_of_true (isBalanced_addUser balanced (of_decide_eq_true possible)) trivial
  | subscribeDirectory user listFiles found path realpath opened =>
      cases listFiles with
      | false => exact iff_of_true balanced fun _ => nofun
      | true =>
          cases found with
          | false => exact iff_of_true balanced fun _ _ => nofun
          | true =>
              refine (isBalanced_subscribePath_iff balanced (of_decide_eq_true possible)).trans ?_
              exact imp_congr_right fun _ => ⟨fun can _ _ => can, fun can => can rfl rfl⟩
  | unsubscribeDirectory user listFiles found realpath opened =>
      exact isBalanced_unsubscribeDirectory_iff balanced (of_decide_eq_true possible)
  | fseventsCallback path order isDirectory isLoggedIn opened =>
      obtain ⟨distinct, all⟩ := Bool.and_eq_true_iff.mp possible
      exact isBalanced_filesFseventsCallback_iff balanced (of_decide_eq_true distinct)
        (of_decide_eq_true all)
  | reloadAccount user listFiles =>
      exact isBalanced_reloadAccount_iff balanced (of_decide_eq_true possible)
  | removeUser user => exact isBalanced_removeUser_iff balanced (of_decide_eq_true possible)

section Runs

variable {path realpath : List Char} {opened opened' : List Char → Option ℕ}

/-- A directory that a session subscribes to and unsubscribes from is not one of its directories more
often than before.
-/
theorem run_subscribe_unsubscribe {after : Subscribers σ}
    (ran : Machine.run stepSubscribers [.subscribeDirectory user true true path realpath opened,
      .unsubscribeDirectory user true true realpath opened'] subscribers = some after)
    : user ∈ subscribers.users ∧ after = subscribers := by
  obtain ⟨middle, stepped, ran⟩ := Machine.run_cons.mp ran
  obtain ⟨last, stepped', ran⟩ := Machine.run_cons.mp ran
  cases ran
  unfold stepSubscribers at stepped stepped'
  split at stepped
  · rename_i possible
    split at stepped'
    · cases stepped
      cases stepped'
      refine ⟨of_decide_eq_true possible, ?_⟩
      change (subscribers.withDirectories user _).withDirectories user _ = _
      rw [Subscribers.withDirectories_withDirectories]
      change subscribers.withDirectories user (((subscribers.withDirectories user
        (realpath ::ₘ subscribers.directories user)).directories user).erase realpath) = _
      rw [Subscribers.directories_withDirectories, Multiset.erase_cons_head,
        Subscribers.withDirectories_self]
    · cases stepped'
  · cases stepped

variable (watching) in
/-- What should hold of a run: the counts follow the subscriptions in every state, and a session that
unsubscribes from a directory right after it subscribed has the paths that it had before, as the
watcher has.
-/
structure StaysBalanced (actions : List (SubscriptionAction σ)) : Prop where
  throughout : ∀ seen, seen <+: actions → ∃ subscriptions subscribers,
    Machine.run (stepSubscriptions watching) seen .initial = some subscriptions
    ∧ Machine.run stepSubscribers seen .initial = some subscribers
    ∧ IsBalanced watching subscriptions subscribers
  restores : ∀ seen user path realpath opened opened',
    seen ++ [.subscribeDirectory user true true path realpath opened,
      .unsubscribeDirectory user true true realpath opened'] <+: actions →
    ∀ before after, Machine.run (stepSubscriptions watching) seen .initial = some before →
      Machine.run (stepSubscriptions watching)
        (seen ++ [.subscribeDirectory user true true path realpath opened,
          .unsubscribeDirectory user true true realpath opened']) .initial = some after →
      (after.user user).subscribedPaths = (before.user user).subscribedPaths
      ∧ (watching → after.fsevents.paths = before.fsevents.paths)

/-- A session and the watcher have the paths again that they had, if the counts follow the
subscriptions.
-/
theorem staysBalanced_of_throughout {actions : List (SubscriptionAction σ)}
    (throughout : ∀ seen, seen <+: actions → ∃ subscriptions subscribers,
      Machine.run (stepSubscriptions watching) seen .initial = some subscriptions
      ∧ Machine.run stepSubscribers seen .initial = some subscribers
      ∧ IsBalanced watching subscriptions subscribers)
    : StaysBalanced watching actions := by
  refine ⟨throughout, ?_⟩
  intro seen user path realpath opened opened' starts before after ranBefore ranAfter
  obtain ⟨before', subscribers, ran, ranSubscribers, balanced⟩ :=
    throughout seen ((List.prefix_append ..).trans starts)
  obtain rfl := Option.some.inj (ran.symm.trans ranBefore)
  obtain ⟨after', subscribers', ran', ranSubscribers', balanced'⟩ := throughout _ starts
  obtain rfl := Option.some.inj (ran'.symm.trans ranAfter)
  obtain ⟨middle, ranSeen, ranBoth⟩ := Machine.run_append.mp ranSubscribers'
  obtain rfl := Option.some.inj (ranSubscribers.symm.trans ranSeen)
  obtain ⟨here, rfl⟩ := run_subscribe_unsubscribe ranBoth
  obtain ⟨_, sets, total⟩ := isBalanced_iff.mp balanced
  obtain ⟨_, sets', total'⟩ := isBalanced_iff.mp balanced'
  exact ⟨(sets' user here).trans (sets user here).symm,
    fun isWatching => (total' isWatching).trans (total isWatching).symm⟩

omit [DecidableEq σ] in
/-- Nothing counts before the first session. -/
theorem isBalanced_initial
    : IsBalanced watching (.initial : Subscriptions σ) .initial := by
  refine isBalanced_iff.mpr ⟨rfl, fun _ => nofun, fun _ => ?_⟩
  exact Finset.sum_empty.symm

end Runs

end Balance

/-- In a run that is possible, the counts follow the subscriptions exactly when all of its actions keep
the balance.
-/
theorem staysBalanced_iff {σ : Type} [DecidableEq σ] (watching : Bool)
    (actions : List (SubscriptionAction σ)) (last : Subscribers σ)
    (possible : Machine.run stepSubscribers actions .initial = some last)
    : StaysBalanced watching actions
      ↔ Machine.Meets (stepSubscriptions watching) (KeepsBalance watching) actions .initial := by
  have along := @Machine.agree_along_iff _ _ (stepSubscriptions watching) _ stepSubscribers
    (IsBalanced watching) (IsBalanced watching) (KeepsBalance watching) (fun _ _ => id) ?_ ?_
    actions .initial .initial last (isBalanced_initial : IsBalanced watching _ _) possible
  · rw [← along]
    exact ⟨StaysBalanced.throughout, staysBalanced_of_throughout⟩
  · intro action subscriptions subscribers next' balanced stepped keeps
    unfold stepSubscribers at stepped
    split at stepped
    · rename_i canAct
      cases stepped
      refine ⟨action.apply watching subscriptions, ?_,
        (isBalanced_apply_iff balanced canAct).mpr keeps⟩
      rw [stepSubscriptions, balanced.users, if_pos canAct]
    · cases stepped
  · intro action subscriptions subscribers next next' balanced stepped gives stepped'
    unfold stepSubscribers at stepped
    unfold stepSubscriptions at stepped'
    split at stepped
    · rename_i canAct
      cases stepped
      rw [balanced.users, if_pos canAct] at stepped'
      cases stepped'
      exact fun balanced' => gives ((isBalanced_apply_iff balanced canAct).mp balanced')
    · cases stepped

/-- Two sessions that subscribe to the same directory, one of which ends while the other loses the
privilege to list files.
-/
def sharedDirectory : List (SubscriptionAction ℕ) :=
  let opened path := some path.length
  [.addUser 1, .addUser 2,
    .subscribeDirectory 1 true true "/".toList "files".toList opened,
    .subscribeDirectory 2 true true "/".toList "files".toList opened,
    .removeUser 1, .reloadAccount 2 false]

theorem staysBalanced_iff_sharedDirectory
    : StaysBalanced true sharedDirectory := by
  refine (staysBalanced_iff true sharedDirectory _ rfl).mpr ?_
  refine ⟨trivial, fun _ stepped => ?_⟩
  cases stepped
  refine ⟨trivial, fun _ stepped => ?_⟩
  cases stepped
  refine ⟨fun _ _ _ => ⟨.inr rfl, .inr rfl⟩, fun _ stepped => ?_⟩
  cases stepped
  refine ⟨fun _ _ _ => ⟨.inr rfl, .inr rfl⟩, fun _ stepped => ?_⟩
  cases stepped
  refine ⟨fun _ => ?_, fun _ stepped => ?_⟩
  · unfold FsEvents.CanRemove
    decide
  cases stepped
  refine ⟨fun _ _ => ?_, fun _ _ => trivial⟩
  unfold FsEvents.CanRemove
  decide

/-- The end of a subscription adds the meta path of the directory again instead of removing it. -/
theorem not_staysBalanced_unsubscribe
    : ¬StaysBalanced true
        [.addUser 1,
          .subscribeDirectory 1 true true "/".toList "files".toList fun path => some path.length,
          .unsubscribeDirectory 1 true true "files".toList fun path => some path.length] := by
  intro balanced
  have restored := (balanced.restores [.addUser 1] 1 _ _ _ _ List.prefix_rfl _ _ rfl rfl).1
  exact absurd (congrArg Multiset.card restored) (by decide)

end WiredServer.Server
