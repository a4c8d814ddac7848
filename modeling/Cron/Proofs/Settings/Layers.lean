import Cron.Proofs.Environment.References
import Cron.Proofs.Environment.Variables
import Cron.Proofs.Settings.Sections
import Cron.Settings.Files

/-!
The layers of the settings. The environment counts more than the file of variables, and the home
directory that it names counts more than that of the file of settings; references are resolved when
all variables are known. Reading the same files once more changes nothing, as long as the variables
of the file do not move the home directory.
-/
namespace Cron

/-- Paths that start at the home of the user whom the environment is of. -/
def Path.IsAtHome (path : Path) : Prop := path.root = "" ∧ path.parts.head? = some "~"

-- Of the environment only the home matters, and that only to a tilde that stands alone.
theorem Path.expandHome_eq {homes : Homes} {env env' : Environment} {path : Path}
    (h : path.IsAtHome → env.get? "HOME" = env'.get? "HOME") :
    path.expandHome homes env = path.expandHome homes env' := by
  unfold expandHome
  split
  · next first rest hroot hparts =>
    split
    · next name hname =>
      have hhome :
          homeOf homes env (String.ofList name) = homeOf homes env' (String.ofList name) := by
        unfold homeOf
        split
        · next hempty =>
          have hfirst : first = "~" := by
            rw [← String.toList_inj, hname]
            simpa using hempty
          rw [h ⟨by simpa using hroot, by rw [hparts, hfirst]; rfl⟩]
        · rfl
      rw [hhome]
    · rfl
  · rfl

namespace Settings

open Environment

variable {levels : Nat} {homes : Homes} {initialHome : String} {env : Environment}
  {files : HomeFiles}
  {fault : Fault} {path : Path} {members : List (String × Json)} {written : Option Json}

theorem loadWithin_of_error (h : homeOf homes initialHome env = .error fault) :
    loadWithin levels homes initialHome env files = (env, .error fault) := by
  rw [loadWithin, h]

theorem loadWithin_of_ok (h : homeOf homes initialHome env = .ok path) :
    loadWithin levels homes initialHome env files =
      (env.fill files.entries,
        ofFile levels initialHome (env.fill files.entries) files.settings) := by
  rw [loadWithin, h]

theorem ofFile_of_error (h : membersOf levels written = .error fault) :
    ofFile levels initialHome env written = .error fault := by
  rw [ofFile, h]
  rfl

theorem ofFile_of_ok (h : membersOf levels written = .ok members) :
    ofFile levels initialHome env written = ofMembers initialHome
      (match env.get? homeVariable with
      | some home => Json.put "home_dir" (.text home) (env.resolveMembers members)
      | none => env.resolveMembers members) := by
  rw [ofFile, h]
  rfl

theorem lookup?_resolveMembers (env : Environment) (name : String)
    (members : List (String × Json)) :
    Json.lookup? name (env.resolveMembers members) =
      (Json.lookup? name members).map env.resolveJson := by
  induction members with
  | nil => rfl
  | cons member rest ih =>
    by_cases h : member.1 = name
    · simp [resolveMembers, Json.lookup?, h]
    · simpa [resolveMembers, Json.lookup?, h] using ih

-- The home directory is read beside the sections.
theorem exists_ofMembers_eq (initialHome : String) (members : List (String × Json)) :
    ∃ (server : Except Fault ServerSettings) (scheduler : Except Fault SchedulerSettings)
      (logLevel : Except Fault String), ofMembers initialHome members =
        (both (both (both (entry [] "home_dir" members initialHome readText) server) scheduler)
          logLevel).map
          fun (((homeDir, server), scheduler), logLevel) =>
            ⟨homeDir, server, scheduler, logLevel⟩ :=
  ⟨_, _, _, rfl⟩

theorem entry_homeDir_of_ofMembers {settings : Settings}
    (h : ofMembers initialHome members = .ok settings) :
    entry [] "home_dir" members initialHome readText = .ok settings.homeDir := by
  obtain ⟨server, scheduler, logLevel, hparts⟩ := exists_ofMembers_eq initialHome members
  rw [hparts] at h
  cases hall : both (both (both (entry [] "home_dir" members initialHome readText) server)
      scheduler) logLevel with
  | error fault =>
    rw [hall] at h
    cases h
  | ok parts =>
    rw [hall] at h
    cases h
    exact (both_eq_ok_iff.1 (both_eq_ok_iff.1 (both_eq_ok_iff.1 hall).1).1).1

/-- What a file of settings gives in an environment. If it can be read, its texts are resolved
within its outline and the home directory of the environment is put into it. -/
structure IsReadIn (levels : Nat) (initialHome : String) (env : Environment) (written : Option Json)
    (result : Except Fault Settings) : Prop where
  error : ∀ fault, membersOf levels written = .error fault → result = .error fault
  ok : ∀ members, membersOf levels written = .ok members → ∃ resolved : List (String × Json),
    (Json.object resolved).outline = (Json.object members).outline ∧
      (Json.object resolved).texts = (Json.object members).texts.map env.resolve ∧
      result = ofMembers initialHome
        (match env.get? homeVariable with
        | some home => Json.put "home_dir" (.text home) resolved
        | none => resolved)
  homeDir : ∀ members settings, membersOf levels written = .ok members → result = .ok settings →
    settings.homeDir =
      match env.get? homeVariable, Json.lookup? "home_dir" members with
      | some home, _ => home
      | none, some (.text s) => env.resolve s
      | none, _ => initialHome

theorem isReadIn_ofFile (levels : Nat) (initialHome : String) (env : Environment)
    (written : Option Json) :
    IsReadIn levels initialHome env written (ofFile levels initialHome env written) where
  error := fun fault => ofFile_of_error
  ok := by
    intro members hmembers
    obtain ⟨houtline, htexts⟩ := resolveJson_eq_iff.1 (rfl :
      env.resolveJson (.object members) = .object (env.resolveMembers members))
    exact ⟨env.resolveMembers members, houtline, htexts, ofFile_of_ok hmembers⟩
  homeDir := by
    intro members settings hmembers hsettings
    rw [ofFile_of_ok hmembers] at hsettings
    have hentry := entry_homeDir_of_ofMembers hsettings
    cases hhome : env.get? homeVariable with
    | some home =>
      rw [hhome] at hentry
      simp only [entry, Json.lookup?_put, readText, Except.ok.injEq] at hentry
      exact hentry.symm
    | none =>
      rw [hhome] at hentry
      simp only [entry, lookup?_resolveMembers] at hentry
      cases hfile : Json.lookup? "home_dir" members with
      | none =>
        rw [hfile] at hentry
        exact (Except.ok.inj hentry).symm
      | some v =>
        rw [hfile] at hentry
        cases v with
        | text s => exact (Except.ok.inj hentry).symm
        | _ => cases hentry

/-- Variables of a file that leave the home directory where it is: they do not add its name, nor
the home that a tilde at its start stands for. -/
def KeepsHome (initialHome : String) (env : Environment) (entries : List (String × String)) :
    Prop :=
  ¬ env.IsAdded entries homeVariable ∧
    ((Path.ofText ((env.get? homeVariable).getD initialHome)).IsAtHome →
      ¬ env.IsAdded entries "HOME")

theorem homeOf_fill {entries : List (String × String)} (h : KeepsHome initialHome env entries) :
    homeOf homes initialHome (env.fill entries) = homeOf homes initialHome env := by
  obtain ⟨hname, hhome⟩ := h
  rw [homeOf, homeOf, get?_fill_of_not_isAdded hname]
  exact Path.expandHome_eq fun hpath => get?_fill_of_not_isAdded (hhome hpath)

/-- Without a home directory nothing is read and nothing changes. With one, a variable keeps its
value or gets that of the file, and in the environment filled so the file of settings is read. If
the home directory stays where it is, the same files read once more give the same result and leave
the environment as it is. -/
theorem load_isLayered (levels : Nat) (homes : Homes) (initialHome : String) (env : Environment)
    (files : HomeFiles) :
    (∀ fault, homeOf homes initialHome env = .error fault →
      loadWithin levels homes initialHome env files = (env, .error fault)) ∧
    ∀ path, homeOf homes initialHome env = .ok path → ∃ filled result,
      loadWithin levels homes initialHome env files = (filled, result) ∧
      (∀ name, filled.get? name =
        (env.get? name).or ((⟨files.entries⟩ : Environment).get? name)) ∧
      IsReadIn levels initialHome filled files.settings result ∧
      (KeepsHome initialHome env files.entries →
        homeOf homes initialHome filled = .ok path ∧
          loadWithin levels homes initialHome filled files = (filled, result)) := by
  refine ⟨fun fault => loadWithin_of_error, fun path hpath => ?_⟩
  refine ⟨env.fill files.entries, ofFile levels initialHome (env.fill files.entries) files.settings,
    loadWithin_of_ok hpath, get?_fill env files.entries, isReadIn_ofFile _ _ _ _, fun hkeeps => ?_⟩
  have hhome : homeOf homes initialHome (env.fill files.entries) = .ok path := by
    rw [homeOf_fill hkeeps, hpath]
  refine ⟨hhome, ?_⟩
  rw [loadWithin_of_ok hhome, fill_fill]

/-- An unknown user's home; and an environment that names no home directory, with a file of
variables of which it has one, and a file of settings that refers to that one. -/
theorem load_isLayered_two_variables :
    (homeOf ⟨"/home/user", []⟩ "/home/user/.cronscope" ⟨[("CRONSCOPE_HOME", "~nobody")]⟩ =
        .error .noHome ∧
      load ⟨"/home/user", []⟩ "/home/user/.cronscope" ⟨[("CRONSCOPE_HOME", "~nobody")]⟩
          ⟨[("A", "1")], none⟩ = (⟨[("CRONSCOPE_HOME", "~nobody")]⟩, .error .noHome)) ∧
    homeOf ⟨"/home/user", []⟩ "~/.cronscope" ⟨[("A", "a"), ("HOME", "/root")]⟩ =
      .ok (.ofText "/root/.cronscope") ∧
    KeepsHome "~/.cronscope" ⟨[("A", "a"), ("HOME", "/root")]⟩ [("A", "1"), ("B", "2")] ∧
    membersOf Document.maxDepth (some (.object [("home_dir", .text "$\x7bA\x7d")])) =
      .ok [("home_dir", .text "$\x7bA\x7d")] ∧
    ∃ filled settings,
      load ⟨"/home/user", []⟩ "~/.cronscope" ⟨[("A", "a"), ("HOME", "/root")]⟩
          ⟨[("A", "1"), ("B", "2")], some (.object [("home_dir", .text "$\x7bA\x7d")])⟩ =
        (filled, .ok settings) ∧
      filled.get? "A" = some "a" ∧ filled.get? "B" = some "2" ∧ settings.homeDir = "a" ∧
      load ⟨"/home/user", []⟩ "~/.cronscope" filled
          ⟨[("A", "1"), ("B", "2")], some (.object [("home_dir", .text "$\x7bA\x7d")])⟩ =
        (filled, .ok settings) := by
  have hstray : homeOf ⟨"/home/user", []⟩ "/home/user/.cronscope"
      ⟨[("CRONSCOPE_HOME", "~nobody")]⟩ = .error .noHome := by
    decide
  have hpath : homeOf ⟨"/home/user", []⟩ "~/.cronscope" ⟨[("A", "a"), ("HOME", "/root")]⟩ =
      .ok (.ofText "/root/.cronscope") := by
    decide +kernel
  have hkeeps : KeepsHome "~/.cronscope" ⟨[("A", "a"), ("HOME", "/root")]⟩
      [("A", "1"), ("B", "2")] := by
    refine ⟨fun h => ?_, fun _ h => ?_⟩
    · cases h.2
    · cases h.1
  have hmembers : membersOf Document.maxDepth (some (.object [("home_dir", .text "$\x7bA\x7d")])) =
      .ok [("home_dir", .text "$\x7bA\x7d")] := by
    rfl
  refine ⟨⟨hstray, (load_isLayered Document.maxDepth _ _ _ _).1 _ hstray⟩, hpath, hkeeps,
    hmembers, ?_⟩
  obtain ⟨filled, result, hload, hget, hread, hagain⟩ := (load_isLayered Document.maxDepth _ _ _
    ⟨[("A", "1"), ("B", "2")],
      some (.object [("home_dir", .text "$\x7bA\x7d")])⟩).2 _ hpath
  have hfilled : filled = ⟨[("B", "2"), ("A", "a"), ("HOME", "/root")]⟩ := by
    rw [loadWithin_of_ok hpath] at hload
    exact (Prod.mk.inj hload).1.symm
  subst hfilled
  obtain ⟨resolved, houtline, htexts, hresult⟩ := hread.ok _ hmembers
  have hresolved : Json.object resolved = .object [("home_dir", .text "a")] := by
    apply Json.eq_of_outline_of_texts
    · rw [houtline]
      rfl
    · have hvalue : (⟨[("B", "2"), ("A", "a"), ("HOME", "/root")]⟩ : Environment).resolve
          "$\x7bA\x7d" = "a" := by
        have hreference : referenceText "A" = "$\x7bA\x7d" := by decide
        rw [← hreference, resolve_referenceText _ "A" ⟨by decide, by decide⟩]
        rfl
      rw [htexts]
      exact congrArg (fun s => [s]) hvalue
  cases hresolved
  subst hresult
  exact ⟨_, Settings.initial "a", hload, by decide, by decide, rfl, (hagain hkeeps).2⟩

/-- Two places where the home directory matters. With an unknown user's home the file of variables
is not read, so that they are not set; and where the file gives the home that the home directory
starts at, there may be no home directory the next time. -/
theorem not_isLayered_stray_home :
    (load ⟨"/home/user", []⟩ "/home/user/.cronscope" ⟨[("CRONSCOPE_HOME", "~nobody")]⟩
          ⟨[("A", "1")], some (.object [])⟩ =
        (⟨[("CRONSCOPE_HOME", "~nobody")]⟩, .error .noHome) ∧
      ¬ ∀ name, (⟨[("CRONSCOPE_HOME", "~nobody")]⟩ : Environment).get? name =
        ((⟨[("CRONSCOPE_HOME", "~nobody")]⟩ : Environment).get? name).or
          ((⟨[("A", "1")]⟩ : Environment).get? name)) ∧
    ∃ filled settings,
      load ⟨"/home/user", []⟩ "/home/user/.cronscope" ⟨[("CRONSCOPE_HOME", "~")]⟩
          ⟨[("HOME", "~")], some (.object [])⟩ = (filled, .ok settings) ∧
      load ⟨"/home/user", []⟩ "/home/user/.cronscope" filled
          ⟨[("HOME", "~")], some (.object [])⟩ = (filled, .error .noHome) := by
  have hstray : homeOf ⟨"/home/user", []⟩ "/home/user/.cronscope"
      ⟨[("CRONSCOPE_HOME", "~nobody")]⟩ = .error .noHome := by
    decide
  have hpath : homeOf ⟨"/home/user", []⟩ "/home/user/.cronscope" ⟨[("CRONSCOPE_HOME", "~")]⟩ =
      .ok (.ofText "/home/user") := by
    decide +kernel
  have hmoved : homeOf ⟨"/home/user", []⟩ "/home/user/.cronscope"
      ⟨[("HOME", "~"), ("CRONSCOPE_HOME", "~")]⟩ = .error .noHome := by
    decide +kernel
  refine ⟨⟨loadWithin_of_error hstray, fun h => ?_⟩, ⟨[("HOME", "~"), ("CRONSCOPE_HOME", "~")]⟩,
    Settings.initial "~", ?_, loadWithin_of_error hmoved⟩
  · have hset := h "A"
    revert hset
    decide
  · rw [load, loadWithin_of_ok hpath]
    rfl

end Settings

end Cron
