import ConnectScrobbler.Core.Cache.Store

/-! The program is started again and again, `src/main.rs`, and finds in its cache what its last login
has left there, `core/src/session.rs`. -/
namespace ConnectScrobbler

/-- What one run of the program has from outside: its options, with `cache` for whether it is given the
directory, what the user types in for a password, and the credentials of the server's welcome, where
the login comes to its end. -/
structure Launch where
  cache : Bool
  spotify_username : Option String
  spotify_password : Option String
  typed : String → Option String
  welcome : Credentials → Option Credentials

namespace Launch

variable (crates : Crates) (location : PathBuf)

def cached (launch : Launch) : Disk (Option Cache × Option Credentials) :=
  if launch.cache then do
    let cache ← Cache.new location false
    let cached_credentials ← cache.credentials crates
    return (some cache, cached_credentials)
  else return (none, none)

/-- `setup`, as far as it is about the credentials. -/
def setup (launch : Launch) : Disk (Option Cache × Option Credentials) := do
  let (cache, cached_credentials) ← launch.cached crates location
  let credentials ← Disk.expect
    (get_credentials launch.typed launch.spotify_username launch.spotify_password cached_credentials)
  return (cache, credentials)

/-- Gives the credentials for the login. When it is done, `Session::connect` saves those it has got. -/
def on_disk (launch : Launch) : Disk (Option Credentials) := do
  let (cache, credentials) ← launch.setup crates location
  match cache, credentials.bind launch.welcome with
  | some cache, some reusable_credentials => do
    cache.save_credentials crates reusable_credentials
    return credentials
  | _, _ => return credentials

/-- The program does not come to an end before it is started again, or it panics: what it has done to
the disk stays. -/
def runs_on_disk (fs : FileSystem) : List Launch → FileSystem × List (Option (Option Credentials))
  | [] => (fs, [])
  | launch :: launches =>
    let (fs, credentials) := launch.on_disk crates location fs
    let (fs, history) := runs_on_disk fs launches
    (fs, credentials :: history)

/-- What it logs in with, where `saved` are the credentials of the last login. -/
def credentials (saved : Option Credentials) (launch : Launch) : Option (Option Credentials) :=
  get_credentials launch.typed launch.spotify_username launch.spotify_password
    (if launch.cache then saved else none)

/-- The credentials that it saves, of those that it has logged in with. -/
def login : Launch × Option (Option Credentials) → Option Credentials
  | (launch, credentials) => if launch.cache then (credentials.bind id).bind launch.welcome else none

/-- Those of the last login. -/
def latest (history : List (Launch × Option (Option Credentials))) : Option Credentials :=
  (history.filterMap login).getLast?

/-- What the runs do, where `saved` are the credentials of the last login before. -/
def runs (saved : Option Credentials) : List Launch → Option Credentials × List (Option (Option Credentials))
  | [] => (saved, [])
  | launch :: launches =>
    let credentials := launch.credentials saved
    let (saved, history) := runs ((login (launch, credentials)).or saved) launches
    (saved, credentials :: history)

end Launch

/-- The directory of the cache, where nothing may be yet, holds nothing but the credentials that are saved. -/
inductive Saved (crates : Crates) (location : PathBuf) (fs : FileSystem) : Option Credentials → Prop where
  | nothing (parent : fs location.dropLast = some .dir) (nothing : ∀ below, fs (location ++ below) = none) :
    Saved crates location fs none
  | holds {saved : Option Credentials} (holds : Holds crates ⟨location, false⟩ fs ⟨saved, fun _ => none⟩) :
    Saved crates location fs saved

variable {crates : Crates} {location : PathBuf} {fs : FileSystem} {saved : Option Credentials}

/-- Making the cache is the same wherever it is done. -/
theorem Saved.new (found : Saved crates location fs saved) :
    ∃ fs', Cache.new location false fs = (fs', some ⟨location, false⟩) ∧
      Holds crates ⟨location, false⟩ fs' ⟨saved, fun _ => none⟩ ∧ Within ⟨location, false⟩ fs fs' := by
  cases found with
  | nothing parent nothing =>
    exact on_disk_new_first crates ⟨location, false⟩ parent nothing false
  | holds holds => exact ⟨fs, on_disk_new holds false, holds, Within.refl _ _⟩

theorem Saved.file_iff (found : Saved crates location fs saved) (path : PathBuf) (below : location <+: path)
    (data : Bytes) : fs path = some (.file data) ↔ path = location ++ ["credentials.json"] ∧
      ∃ cred, saved = some cred ∧ data = cred.contents crates := by
  cases found with
  | nothing parent nothing =>
    obtain ⟨rest, rfl⟩ := below
    simp [nothing]
  | holds holds =>
    rw [holds path below]
    constructor
    · intro kept
      cases kept with
      | credentials here saved => exact ⟨here, _, saved, rfl⟩
      | file here saved => cases saved
    · rintro ⟨here, cred, saved, rfl⟩
      exact .credentials here saved

namespace Launch

theorem setup_cached {launch : Launch} {fs' : FileSystem} {cache : Option Cache}
    {cached_credentials : Option Credentials}
    (ran : launch.cached crates location fs = (fs', some (cache, cached_credentials))) :
    launch.setup crates location fs = (fs', (get_credentials launch.typed launch.spotify_username
      launch.spotify_password cached_credentials).map fun credentials => (cache, credentials)) := by
  rw [setup, Disk.bind_returns ran]
  dsimp only
  cases got : get_credentials launch.typed launch.spotify_username launch.spotify_password cached_credentials with
  | none => exact Disk.bind_panics rfl
  | some credentials => exact Disk.bind_returns rfl

theorem on_disk_refines (launch : Launch) (found : Saved crates location fs saved) :
    ∃ fs', launch.on_disk crates location fs = (fs', launch.credentials saved) ∧
      Saved crates location fs' ((login (launch, launch.credentials saved)).or saved) ∧
      Within ⟨location, false⟩ fs fs' := by
  cases given : launch.cache with
  | false =>
    have without : launch.cached crates location fs = (fs, some (none, none)) := by
      rw [cached, given]
      rfl
    have ready := setup_cached without
    simp only [credentials, login, given, Bool.false_eq_true, if_false, Option.none_or]
    refine ⟨fs, ?_, found, Within.refl _ _⟩
    cases got : get_credentials launch.typed launch.spotify_username launch.spotify_password none with
    | none =>
      rw [got] at ready
      rw [on_disk, Disk.bind_panics ready]
    | some credentials =>
      rw [got] at ready
      rw [on_disk, Disk.bind_returns ready]
      rfl
  | true =>
    obtain ⟨fs₁, made, holds, within⟩ := found.new
    have cached_there : launch.cached crates location fs = (fs₁, some (some ⟨location, false⟩, saved)) := by
      rw [cached, if_pos given, Disk.bind_returns made, Disk.bind_returns (on_disk_credentials holds)]
      rfl
    have ready := setup_cached cached_there
    simp only [credentials, login, given, if_true]
    cases got : get_credentials launch.typed launch.spotify_username launch.spotify_password saved with
    | none =>
      rw [got] at ready
      refine ⟨fs₁, ?_, .holds holds, within⟩
      rw [on_disk, Disk.bind_panics ready]
    | some credentials =>
      rw [got] at ready
      rw [on_disk, Disk.bind_returns ready]
      simp only [Option.bind_some, id]
      cases credentials.bind launch.welcome with
      | none => exact ⟨fs₁, rfl, .holds holds, within⟩
      | some reusable_credentials =>
        refine ⟨_, ?_, .holds (holds.save_credentials reusable_credentials), within.trans (Within.update _ fs₁ _ _)⟩
        exact Disk.bind_returns (on_disk_save_credentials holds reusable_credentials)

theorem runs_refine (launches : List Launch) (found : Saved crates location fs saved) :
    ∃ fs', runs_on_disk crates location fs launches = (fs', (runs saved launches).2) ∧
      Saved crates location fs' (runs saved launches).1 ∧ Within ⟨location, false⟩ fs fs' := by
  induction launches generalizing fs saved with
  | nil => exact ⟨fs, rfl, found, Within.refl _ _⟩
  | cons launch launches ih =>
    obtain ⟨fs₁, ran, found₁, within₁⟩ := launch.on_disk_refines found
    obtain ⟨fs₂, rest, found₂, within₂⟩ := ih found₁
    refine ⟨fs₂, ?_, found₂, within₁.trans within₂⟩
    simp only [runs_on_disk, ran, rest]
    rfl

theorem latest_cons (first : Launch × Option (Option Credentials))
    (history : List (Launch × Option (Option Credentials))) (saved : Option Credentials) :
    (latest (first :: history)).or saved = (latest history).or ((login first).or saved) := by
  rw [latest, latest, List.filterMap_cons]
  cases login first with
  | none => rfl
  | some credentials =>
    rw [List.getLast?_cons, Option.some_or]
    cases (history.filterMap login).getLast? <;> rfl

theorem length_runs (launches : List Launch) (saved : Option Credentials) :
    (runs saved launches).2.length = launches.length := by
  induction launches generalizing saved with
  | nil => rfl
  | cons launch launches ih => exact congrArg (· + 1) (ih _)

theorem runs_history (launches : List Launch) (saved : Option Credentials) :
    (runs saved launches).1 = (latest (launches.zip (runs saved launches).2)).or saved ∧
      ∀ i (launch : Launch), launches[i]? = some launch → (runs saved launches).2[i]? =
        some (launch.credentials ((latest ((launches.zip (runs saved launches).2).take i)).or saved)) := by
  induction launches generalizing saved with
  | nil => exact ⟨rfl, nofun⟩
  | cons first launches ih =>
    obtain ⟨last, logged⟩ := ih ((login (first, first.credentials saved)).or saved)
    refine ⟨?_, fun i launch there => ?_⟩
    · rw [runs, List.zip_cons_cons, latest_cons]
      exact last
    · cases i with
      | zero =>
        cases there
        rfl
      | succ i =>
        rw [runs, List.zip_cons_cons, List.take_succ_cons, latest_cons]
        exact logged i launch there

end Launch

/-- Where no cache is yet, the program may be started however often: each time it logs in with the
credentials of the last login before that got to its end, if it is not given others. Whatever it was
given, the one file of the cache is that of those credentials, and nothing elsewhere is changed. -/
theorem restarts_log_in (crates : Crates) (location : PathBuf) (fs : FileSystem)
    (parent : fs location.dropLast = some .dir) (nothing : ∀ below, fs (location ++ below) = none)
    (launches : List Launch) :
    ∃ fs' history, Launch.runs_on_disk crates location fs launches = (fs', history) ∧
      history.length = launches.length ∧ (∀ i (launch : Launch), launches[i]? = some launch →
        history[i]? = some (launch.credentials (Launch.latest ((launches.zip history).take i)))) ∧
      Saved crates location fs' (Launch.latest (launches.zip history)) ∧
      (∀ path, location <+: path → ∀ data, fs' path = some (.file data) ↔
        path = location ++ ["credentials.json"] ∧
          ∃ cred, Launch.latest (launches.zip history) = some cred ∧ data = cred.contents crates) ∧
      Within ⟨location, false⟩ fs fs' := by
  have start : Saved crates location fs none := .nothing parent nothing
  obtain ⟨fs', ran, saved, within⟩ := Launch.runs_refine launches start
  obtain ⟨last, logged⟩ := Launch.runs_history launches none
  simp only [Option.or_none] at last logged
  rw [last] at saved
  exact ⟨fs', _, ran, Launch.length_runs launches none, logged, saved, saved.file_iff, within⟩

/-- The password is typed in once; after that, not even the user need be given. -/
theorem restarts_log_in_twice :
    let reusable : Credentials := ⟨"user", .AUTHENTICATION_STORED_SPOTIFY_CREDENTIALS, [1, 2, 3]⟩
    let first : Launch := ⟨true, some "user", none, fun _ => some "secret", fun _ => some reusable⟩
    let again : Launch := ⟨true, none, none, fun _ => none, fun _ => none⟩
    (Launch.runs_on_disk .plain ["home", "cache"] (fun path => if path = ["home"] then some .dir else none)
      [first, again]).2 = [some (some (.with_password "user" "secret")), some (some reusable)] := by
  intro reusable first again
  obtain ⟨fs', history, ran, length, logged, _⟩ := restarts_log_in .plain ["home", "cache"]
    (fun path => if path = ["home"] then some .dir else none) rfl (fun below => by simp) [first, again]
  obtain ⟨one, two, rfl⟩ := List.length_eq_two.mp length
  rw [ran]
  have typed : one = some (some (.with_password "user" "secret")) := Option.some.inj (logged 0 first rfl)
  subst typed
  have reused : two = some (some reusable) := Option.some.inj (logged 1 again rfl)
  subst reused
  rfl

end ConnectScrobbler
