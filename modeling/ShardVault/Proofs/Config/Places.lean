import Mathlib.Data.List.DropRight
import ShardVault.Proofs.Config.Sections

namespace ShardVault

variable {s s' : Surroundings}

namespace Surroundings

def homeNames : Host → List Text
  | .posix => ["HOME"]
  | .windows => ["USERPROFILE", "HOMEDRIVE", "HOMEPATH"]

/-- The variables from which a system takes the places for data and logs before it looks below the
home directory. -/
def placeNames (s : Surroundings) : List Text :=
  if s.system.lower = "windows" then ["LOCALAPPDATA"]
  else if s.system.lower = "darwin" then []
  else ["XDG_DATA_HOME", "XDG_STATE_HOME"]

/-- The variables of the host tell a home directory: an absolute one, or under Windows any that is
not given from another home. -/
def TellsHome (s : Surroundings) : Prop :=
  match s.host with
  | .posix => ∃ home, s.environment.get? "HOME" = some home ∧
      (Path.ofText home).isAbsolute = true
  | .windows => ∃ home, s.homeText? = some home ∧ home.head? ≠ some (CodePoint.ofChar '~')

theorem head?_eq_of_isAbsolute {value : Text} (absolute : (Path.ofText value).isAbsolute = true) :
    value.head? = some (CodePoint.ofChar '/') := by
  cases value with
  | nil => cases absolute
  | cons c rest =>
    by_contra other
    have none : (c == CodePoint.ofChar '/') = false := by simpa using other
    simp [Path.isAbsolute, Path.ofText, Path.rootOf, none] at absolute

theorem home_eq_ok {t : Text} (told : s.homeText? = some t)
    (own : t.head? ≠ some (CodePoint.ofChar '~')) : s.home = .ok (s.host.path t) := by
  rw [home, told]
  exact if_neg own

theorem exists_home (h : s.TellsHome) : ∃ home, s.home = .ok home := by
  unfold TellsHome at h
  cases host : s.host with
  | windows =>
    rw [host] at h
    obtain ⟨home, told, own⟩ := h
    exact ⟨_, home_eq_ok told own⟩
  | posix =>
    rw [host] at h
    obtain ⟨value, set, absolute⟩ := h
    have rooted := head?_eq_of_isAbsolute absolute
    -- What is kept of the value begins as the value does, or nothing is kept.
    obtain ⟨kept, told, begins⟩ : ∃ kept : Text,
        s.homeText? = some (if kept.isEmpty then ("/" : Text) else kept) ∧ kept <+: value := by
      refine ⟨value.rdropWhile (· == CodePoint.ofChar '/'), ?_, List.rdropWhile_prefix _ _⟩
      simp only [homeText?, host, set, Option.some_or, Option.map_some]
      rfl
    refine ⟨_, home_eq_ok told ?_⟩
    split
    · decide
    · intro tilde
      obtain ⟨rest, rfl⟩ := begins
      rw [List.head?_append, tilde, Option.some_or] at rooted
      exact absurd rooted (by decide)

theorem base_fails (h : ∃ home, s.home = .ok home) (variableName : Text) (fallback : List Text) :
    FailsWith Invalid (s.base variableName fallback) := by
  obtain ⟨home, known⟩ := h
  rw [base, known, ok_bind]
  exact .ok _

theorem dataDir_fails (h : ∃ home, s.home = .ok home) : FailsWith Invalid s.dataDir := by
  refine .ite ((base_fails h _ _).bind fun _ _ ↦ .ok _) (.ite ?_
    ((base_fails h _ _).bind fun _ _ ↦ .ok _))
  obtain ⟨home, known⟩ := h
  rw [known]
  exact .ok _

theorem logDir_fails (h : ∃ home, s.home = .ok home) : FailsWith Invalid s.logDir := by
  refine .ite ((base_fails h _ _).map _) (.ite ?_ ((base_fails h _ _).map _))
  obtain ⟨home, known⟩ := h
  rw [known]
  exact .ok _

/-- The same system on the same host takes its places from the same values. -/
structure SamePlaces (s s' : Surroundings) : Prop where
  system : s'.system = s.system
  host : s'.host = s.host
  account : s'.account = s.account
  home : ∀ name ∈ homeNames s.host, s'.environment.get? name = s.environment.get? name
  place : ∀ name ∈ s.placeNames, s'.environment.get? name = s.environment.get? name

theorem SamePlaces.home_eq (h : SamePlaces s s') : s'.home = s.home := by
  have told : s'.homeText? = s.homeText? := by
    have same := h.home
    rw [homeText?, homeText?, h.host]
    cases host : s.host with
    | posix =>
      simp only [host, homeNames, List.forall_mem_cons] at same
      simp only [same.1, h.account]
    | windows =>
      simp only [host, homeNames, List.forall_mem_cons] at same
      simp only [same.1, same.2.1, same.2.2.1]
  rw [Surroundings.home, Surroundings.home, told, h.host]

theorem SamePlaces.base_eq (h : SamePlaces s s') {variableName : Text}
    (own : variableName ∈ s.placeNames) (fallback : List Text) :
    s'.base variableName fallback = s.base variableName fallback := by
  simp only [base, h.home_eq, h.host, h.place variableName own]

theorem SamePlaces.dirs_eq (h : SamePlaces s s') :
    s'.dataDir = s.dataDir ∧ s'.logDir = s.logDir := by
  have own := @h.base_eq
  simp only [Surroundings.dataDir, Surroundings.logDir, h.system]
  unfold placeNames at own
  split
  · next windows =>
    simp only [windows, if_true, List.mem_singleton, forall_eq] at own
    simp only [own, and_self]
  · next other =>
    rw [if_neg other] at own
    split
    · simp only [h.home_eq, and_self]
    · next other' =>
      simp only [other', if_false, List.mem_cons, List.not_mem_nil, or_false] at own
      simp only [own (.inl rfl), own (.inr rfl), and_self]

theorem SamePlaces.pathSection_eq (h : SamePlaces s s') (dataDir logDir : Option Path) :
    s'.pathSection dataDir logDir = s.pathSection dataDir logDir := by
  simp only [pathSection, h.dirs_eq.1, h.dirs_eq.2]

/-- A path is the one that a text names, or the one suggested if there is no text. -/
def Places (host : Host) (named : Option Text) (suggested : Except Failure Path) (path : Path) :
    Prop :=
  match named with
  | some t => path = host.path t
  | none => suggested = .ok path

def placed (named : Option Path) (suggested : Except Failure Path) : Except Failure Path :=
  match named with
  | some path => .ok path
  | none => suggested

theorem placed_eq_ok_iff {host : Host} {named : Option Text} {suggested : Except Failure Path}
    {path : Path} :
    placed (named.map host.path) suggested = .ok path ↔ Places host named suggested path := by
  cases named with
  | none => exact Iff.rfl
  | some t => exact Except.ok.injEq .. |>.to_iff.trans eq_comm

theorem placed_fails {named : Option Path} {suggested : Except Failure Path}
    (h : FailsWith Invalid suggested) : FailsWith Invalid (placed named suggested) := by
  cases named with
  | none => exact h
  | some path => exact .ok path

theorem pathSection_eq (s : Surroundings) (dataDir logDir : Option Path) :
    s.pathSection dataDir logDir = placed dataDir s.dataDir >>= fun dataDir ↦
      placed logDir s.logDir >>= fun logDir ↦ PathSection.of dataDir logDir := by
  cases dataDir <;> cases logDir <;> rfl

theorem pathSection_eq_ok_iff {dataDir logDir : Option Text} {paths : PathSection} :
    s.pathSection (dataDir.map s.host.path) (logDir.map s.host.path) = .ok paths ↔
      Places s.host dataDir s.dataDir paths.dataDir ∧
        Places s.host logDir s.logDir paths.logDir := by
  simp only [pathSection_eq, bind_eq_ok, placed_eq_ok_iff, PathSection.of_eq_ok_iff]
  constructor
  · rintro ⟨_, data, _, log, rfl, rfl⟩
    exact ⟨data, log⟩
  · rintro ⟨data, log⟩
    exact ⟨_, data, _, log, rfl, rfl⟩

theorem pathSection_fails (h : ∃ home, s.home = .ok home) (dataDir logDir : Option Path) :
    FailsWith Invalid (s.pathSection dataDir logDir) := by
  rw [pathSection_eq]
  refine (placed_fails (dataDir_fails h)).bind fun dataDir _ ↦ ?_
  refine (placed_fails (logDir_fails h)).bind fun logDir _ ↦ ?_
  exact PathSection.of_fails dataDir logDir

theorem whenAny_iff {dataDir logDir : Option Path} {paths : PathSection} :
    (∃ found, whenAny [dataDir.isSome, logDir.isSome] (s.pathSection dataDir logDir) = .ok found ∧
        found.elim (s.pathSection none none) .ok = .ok paths) ↔
      s.pathSection dataDir logDir = .ok paths := by
  unfold whenAny
  split
  · simp [map_eq_ok]
  · next idle =>
    obtain ⟨rfl, rfl⟩ : dataDir = none ∧ logDir = none := by simpa using idle
    simp

end Surroundings

end ShardVault
