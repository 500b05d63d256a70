import TemplateUsage.CommandLine.Run
import TemplateUsage.Proofs.CommandLine.Expansion
import TemplateUsage.Proofs.Cutting
import TemplateUsage.Proofs.Report.Gathering

set_option autoImplicit false

/-!
# What a run comes to

The work on a path ends in a verdict, and the verdict depends on nothing but the path and
what stands there (`judge`). What a run has gathered can be told from the paths it has
worked on and their verdicts (`FileSystem.progress`): a step of the run adds the path it works
on (`addSource_progress`), so a whole run comes to what its paths come to, up to the first
verdict that stops it (`FileSystem.exists_run_eq`).
-/

namespace TemplateUsage.CommandLine

/-! ## Verdicts -/

/-- How the work on a path ends. -/
inductive Verdict where
  | listed (usages : List Usage)
  | unreadable (reason : String)
  | rejected (error : SyntaxError)
  /-- A number that cannot be read. -/
  | stopped (error : NumeralError)

namespace Verdict

/-- The usages to be listed. -/
def usages? : Verdict → Option (List Usage)
  | .listed usages => some usages
  | _ => none

/-- Why nothing is read. -/
def reason? : Verdict → Option String
  | .unreadable reason => some reason
  | _ => none

/-- Why the template is rejected. -/
def rejection? : Verdict → Option SyntaxError
  | .rejected error => some error
  | _ => none

/-- Why the run stops. -/
def stop? : Verdict → Option NumeralError
  | .stopped error => some error
  | _ => none

end Verdict

/-- The work on a text. -/
def judgeText (path : Path) (text : String) : Verdict :=
  match Template.parse path.text text with
  | .ok root => .listed (root.collect Scope.empty)
  | .error (.rejected error) => .rejected error
  | .error (.numeral error) => .stopped error

/-- The work on what stands at a path. -/
def judge (path : Path) : Found → Verdict
  | .file (.bytes bytes) =>
      match Text.ofFileBytes bytes with
      | .ok text => judgeText path text
      | .error error =>
          .unreadable ("could not read " ++ path.text ++ ": " ++ error.message)
  | .file (.unreadable error) =>
      .unreadable ("could not read " ++ path.text ++ ": " ++ error.message path)
  | .nothing | .folder _ => .unreadable ("not a file: " ++ path.text)

/-- A path is unreadable, or it is judged by the text that stands there. -/
theorem judge_cases (path : Path) (found : Found) :
    (∃ reason, judge path found = .unreadable reason) ∨
      ∃ bytes text, found = .file (.bytes bytes) ∧ Text.ofFileBytes bytes = .ok text ∧
        judge path found = judgeText path text := by
  cases found with
  | nothing => exact .inl ⟨_, rfl⟩
  | folder files => exact .inl ⟨_, rfl⟩
  | file content =>
      cases content with
      | unreadable error => exact .inl ⟨_, rfl⟩
      | bytes bytes =>
          rw [judge]
          cases htext : Text.ofFileBytes bytes with
          | error error => exact .inl ⟨_, rfl⟩
          | ok text => exact .inr ⟨bytes, text, rfl, htext, rfl⟩

/-- The lines of the log on what stands at a path. -/
def logLines (path : Path) : Found → List String
  | .file (.bytes bytes) =>
      match Text.ofFileBytes bytes with
      | .ok text => (logRecords path.text text).map LogRecord.text
      | .error _ => []
  | .file (.unreadable _) | .nothing | .folder _ => []

/-- The lines of messages on what stands at a path: of the log, if that is asked for, and
one if nothing can be read there. -/
def notes (options : Options) (path : Path) (found : Found) : List String :=
  (if options.verbose then logLines path found else []) ++
    ((judge path found).reason?.map ("template-tokens: error: " ++ ·)).toList

/-- Where nothing is read, there is nothing to log. -/
theorem notes_of_unreadable (options : Options) {path : Path} {found : Found} {reason : String}
    (h : judge path found = .unreadable reason) :
    notes options path found = ["template-tokens: error: " ++ reason] := by
  have hlog : logLines path found = [] := by
    cases found with
    | nothing => rfl
    | folder files => rfl
    | file content =>
        cases content with
        | unreadable error => rfl
        | bytes bytes =>
            rw [judge] at h
            rw [logLines]
            split at h
            · unfold judgeText at h
              split at h <;> cases h
            · rfl
  rw [notes, hlog, h, ite_self]
  rfl

/-- Where something is read, the messages are those of the log. -/
theorem notes_of_text (options : Options) {path : Path} {bytes : List UInt8} {text : String}
    (htext : Text.ofFileBytes bytes = .ok text) :
    notes options path (.file (.bytes bytes)) =
      if options.verbose then (logRecords path.text text).map LogRecord.text else [] := by
  have hreason : (judge path (.file (.bytes bytes))).reason? = none := by
    rw [judge, htext]
    dsimp only [judgeText]
    split <;> rfl
  rw [notes, hreason, logLines, htext]
  exact List.append_nil _

/-- The report on templates that are rejected. -/
def reportOn (errors : List SyntaxError) : Report :=
  errors.foldl (fun report error => report.addFailure (Failure.ofSyntaxError error)) Report.empty

theorem reportOn_concat (errors : List SyntaxError) (error : SyntaxError) :
    reportOn (errors ++ [error]) = (reportOn errors).addFailure (Failure.ofSyntaxError error) := by
  rw [reportOn, List.foldl_append]
  rfl

theorem reportOn_eq_ofFailures (errors : List SyntaxError) :
    reportOn errors = Report.ofFailures (errors.map Failure.ofSyntaxError) :=
  List.foldl_map.symm

/-- A report has a diagnostic for each template that is rejected. -/
theorem diagnostics_reportOn (errors : List SyntaxError) :
    (reportOn errors).diagnostics = errors.map SyntaxError.diagnostic := by
  rw [reportOn_eq_ofFailures, Report.diagnostics_ofFailures, List.map_map]
  rfl

/-- A run that lists templates works on the sources of its arguments one after the other. -/
theorem run_eq_foldlM {options : Options} {arguments paths : List String} (look : Path → Found)
    (surroundings : Surroundings)
    (hrequest : Request.ofArguments arguments = .ok (.list options paths)) :
    run arguments look surroundings =
      ((paths.flatMap fun text => (look (Path.ofText text)).sources (Path.ofText text)).foldlM
        (fun done source => Progress.addSource done options source) Progress.start).map
          (Progress.outcome · options surroundings.wantsColour) := by
  rw [run, hrequest]
  rfl

namespace FileSystem

variable {system : FileSystem} {options : Options} {done : List Path} {path : Path}

/-- The verdict on a path. -/
def verdict (system : FileSystem) (path : Path) : Verdict := judge path (system.look path)

/-- What is listed of a path. -/
def listed? (system : FileSystem) (path : Path) : Option (String × List Usage) :=
  (system.verdict path).usages?.map fun usages => (path.text, usages)

/-- Why templates are rejected, a path at a time. -/
def rejections (system : FileSystem) (paths : List Path) : List SyntaxError :=
  paths.filterMap fun path => (system.verdict path).rejection?

/-- What a run has gathered when it has worked on the paths. -/
def progress (system : FileSystem) (options : Options) (done : List Path) : Progress where
  listing := ⟨done.eraseDups.filterMap system.listed?⟩
  report := reportOn (system.rejections done)
  messages := done.flatMap fun path => notes options path (system.look path)
  unreadable := done.any fun path => (system.verdict path).reason?.isSome

/-! ## A step -/

theorem eraseDups_concat (done : List Path) (path : Path) :
    (done ++ [path]).eraseDups =
      if path ∈ done then done.eraseDups else done.eraseDups ++ [path] := by
  rw [List.eraseDups_append, List.removeAll]
  split
  · rename_i hmem
    rw [List.filter_cons_of_neg (by simpa using hmem), List.filter_nil, List.eraseDups_nil,
      List.append_nil]
  · rename_i hmem
    rw [List.filter_cons_of_pos (by simpa using hmem), List.filter_nil]
    rfl

/-- A path that is not listed leaves the listing as it is. -/
theorem listing_progress_of_none (h : (system.verdict path).usages? = none) :
    (system.progress options (done ++ [path])).listing =
      (system.progress options done).listing := by
  have hentry : system.listed? path = none := by rw [listed?, h, Option.map_none]
  dsimp only [progress]
  rw [eraseDups_concat]
  split
  · rfl
  · rw [List.filterMap_append, List.filterMap_cons_none hentry, List.filterMap_nil,
      List.append_nil]

/-- A path that is listed is set in the listing; a path that was listed before has the
usages it had. -/
theorem listing_progress_of_listed {usages : List Usage}
    (hdone : ∀ other ∈ done, other.Clean) (hpath : path.Clean)
    (h : system.verdict path = .listed usages) :
    (system.progress options done).listing.set path.text usages =
      (system.progress options (done ++ [path])).listing := by
  have hentry : system.listed? path = some (path.text, usages) := by rw [listed?, h]; rfl
  -- only the path itself is listed under its text
  have hself {entry : String × List Usage} (hmem : entry ∈ done.eraseDups.filterMap system.listed?)
      (hkey : entry.1 = path.text) : path ∈ done ∧ entry = (path.text, usages) := by
    obtain ⟨other, hother, hfound⟩ := List.mem_filterMap.1 hmem
    rw [List.mem_eraseDups] at hother
    obtain ⟨others, hlisted, rfl⟩ := Option.map_eq_some_iff.1 hfound
    obtain rfl := Path.text_injective (hdone other hother) hpath hkey
    rw [h] at hlisted
    cases hlisted
    exact ⟨hother, rfl⟩
  dsimp only [progress]
  rw [eraseDups_concat, Listing.set]
  dsimp only
  by_cases hmem : path ∈ done
  · have hany : ((done.eraseDups.filterMap system.listed?).any
        fun entry => entry.1 == path.text) = true :=
      List.any_eq_true.2 ⟨_, List.mem_filterMap.2 ⟨path, List.mem_eraseDups.2 hmem, hentry⟩,
        beq_self_eq_true _⟩
    rw [if_pos hany, if_pos hmem]
    congr 1
    refine (List.map_congr_left fun entry hentry => ?_).trans (List.map_id _)
    split
    · rename_i hkey
      exact (hself hentry (eq_of_beq hkey)).2.symm
    · rfl
  · have hany : ¬ ((done.eraseDups.filterMap system.listed?).any
        fun entry => entry.1 == path.text) = true := by
      rw [List.any_eq_true]
      rintro ⟨entry, hentry, hkey⟩
      exact hmem (hself hentry (eq_of_beq hkey)).1
    rw [if_neg hany, if_neg hmem, List.filterMap_append, List.filterMap_cons_some hentry,
      List.filterMap_nil]

/-- What a run has gathered after one more path, by its parts. -/
theorem progress_concat_eq {next : Progress}
    (hlisting : next.listing = (system.progress options (done ++ [path])).listing)
    (hreport : next.report = match (system.verdict path).rejection? with
      | some error => (system.progress options done).report.addFailure (Failure.ofSyntaxError error)
      | none => (system.progress options done).report)
    (hmessages : next.messages =
      (system.progress options done).messages ++ notes options path (system.look path))
    (hunreadable : next.unreadable =
      ((system.progress options done).unreadable || (system.verdict path).reason?.isSome)) :
    next = system.progress options (done ++ [path]) := by
  obtain ⟨listing, report, messages, unreadable⟩ := next
  rw [progress, Progress.mk.injEq]
  refine ⟨hlisting, hreport.trans ?_, hmessages.trans ?_, hunreadable.trans ?_⟩
  · rw [rejections, List.filterMap_append, List.filterMap_cons]
    cases (system.verdict path).rejection? with
    | none => rw [List.filterMap_nil, List.append_nil]; rfl
    | some error => rw [List.filterMap_nil, reportOn_concat]; rfl
  · rw [List.flatMap_append, List.flatMap_singleton]
    rfl
  · rw [List.any_append, List.any_cons, List.any_nil, Bool.or_false]
    rfl

/-- A path where nothing can be read is noted. -/
theorem addUnreadable_progress {reason : String}
    (hverdict : system.verdict path = .unreadable reason) :
    (system.progress options done).addUnreadable reason =
      system.progress options (done ++ [path]) := by
  refine progress_concat_eq (listing_progress_of_none ?_).symm ?_ ?_ ?_
  · rw [hverdict]; rfl
  · rw [hverdict]; rfl
  · rw [notes_of_unreadable options hverdict]; rfl
  · rw [hverdict]; exact (Bool.or_true _).symm

/-- Working on a text adds its path to the paths worked on, unless its verdict stops the
run. -/
theorem addText_progress {bytes : List UInt8} {text : String}
    (hdone : ∀ other ∈ done, other.Clean) (hpath : path.Clean)
    (hlook : system.look path = .file (.bytes bytes)) (htext : Text.ofFileBytes bytes = .ok text) :
    (system.progress options done).addText options path.text text =
      match (system.verdict path).stop? with
      | some error => .error error
      | none => .ok (system.progress options (done ++ [path])) := by
  have hverdict : system.verdict path = judgeText path text := by
    rw [verdict, hlook, judge, htext]
  have hnotes : notes options path (system.look path) =
      if options.verbose then (logRecords path.text text).map LogRecord.text else [] := by
    rw [hlook, notes_of_text options htext]
  rw [judgeText] at hverdict
  rw [Progress.addText, Template.collectUsages_eq]
  cases hparse : Template.parse path.text text with
  | ok root =>
      rw [hparse] at hverdict
      rw [hverdict]
      refine congrArg Except.ok (progress_concat_eq ?_ ?_ ?_ ?_)
      · exact listing_progress_of_listed hdone hpath hverdict
      · rw [hverdict]; rfl
      · rw [hnotes]
      · rw [hverdict]; exact (Bool.or_false _).symm
  | error error =>
      rw [hparse] at hverdict
      cases error with
      | numeral error => rw [hverdict]; rfl
      | rejected error =>
          rw [hverdict]
          refine congrArg Except.ok
            (progress_concat_eq (listing_progress_of_none ?_).symm ?_ ?_ ?_)
          · rw [hverdict]; rfl
          · rw [hverdict]; rfl
          · rw [hnotes]
          · rw [hverdict]; exact (Bool.or_false _).symm

/-- Working on a path adds it to the paths worked on, unless its verdict stops the run. -/
theorem addSource_progress (hdone : ∀ other ∈ done, other.Clean) (hpath : path.Clean) :
    (system.progress options done).addSource options (system.sourceAt path) =
      match (system.verdict path).stop? with
      | some error => .error error
      | none => .ok (system.progress options (done ++ [path])) := by
  rw [Progress.addSource, sourceAt]
  cases hlook : system.look path with
  | nothing =>
      have hverdict : system.verdict path = .unreadable ("not a file: " ++ path.text) := by
        rw [verdict, hlook]
        rfl
      rw [hverdict]
      exact congrArg Except.ok (addUnreadable_progress hverdict)
  | folder files =>
      have hverdict : system.verdict path = .unreadable ("not a file: " ++ path.text) := by
        rw [verdict, hlook]
        rfl
      rw [hverdict]
      exact congrArg Except.ok (addUnreadable_progress hverdict)
  | file content =>
      cases content with
      | unreadable error =>
          have hverdict : system.verdict path =
              .unreadable ("could not read " ++ path.text ++ ": " ++ error.message path) := by
            rw [verdict, hlook]
            rfl
          rw [hverdict]
          exact congrArg Except.ok (addUnreadable_progress hverdict)
      | bytes bytes =>
          dsimp only
          cases htext : Text.ofFileBytes bytes with
          | ok text => exact addText_progress hdone hpath hlook htext
          | error error =>
              have hverdict : system.verdict path =
                  .unreadable ("could not read " ++ path.text ++ ": " ++ error.message) := by
                rw [verdict, hlook, judge, htext]
              rw [hverdict]
              exact congrArg Except.ok (addUnreadable_progress hverdict)

/-! ## A run -/

/-- Working on paths adds them to the paths worked on, up to the first verdict that stops
the run. -/
theorem foldlM_progress {queue : List Path} (hdone : ∀ other ∈ done, other.Clean)
    (hqueue : ∀ other ∈ queue, other.Clean) :
    (queue.map system.sourceAt).foldlM (fun done source => Progress.addSource done options source)
        (system.progress options done) =
      match queue.findSome? fun path => (system.verdict path).stop? with
      | some error => .error error
      | none => .ok (system.progress options (done ++ queue)) := by
  -- on the paths still to be worked on; those worked on grow with every step
  induction queue generalizing done with
  | nil =>
      rw [List.append_nil]
      rfl
  | cons path rest ih =>
      obtain ⟨hpath, hrest⟩ := List.forall_mem_cons.1 hqueue
      rw [List.map_cons, List.foldlM_cons, addSource_progress hdone hpath, List.findSome?_cons]
      cases (system.verdict path).stop? with
      | some error => rfl
      | none =>
          have hmore : ∀ other ∈ done ++ [path], other.Clean :=
            List.forall_mem_append.2 ⟨hdone, by simpa using hpath⟩
          have hrun := ih hmore hrest
          rw [List.append_assoc] at hrun
          exact hrun

/-- The paths that arguments stand for, in order. -/
def ExpandsAll (system : FileSystem) (arguments : List String) (queue : List Path) : Prop :=
  ∃ expansions, List.Forall₂ (fun text found => system.Expands (Path.ofText text) found)
    arguments expansions ∧ queue = expansions.flatten

theorem exists_queue (system : FileSystem) (paths : List String) :
    ∃ queue, system.ExpandsAll paths queue ∧ (∀ path ∈ queue, path.Clean) ∧
      (paths.flatMap fun text => (system.look (Path.ofText text)).sources (Path.ofText text)) =
        queue.map system.sourceAt := by
  induction paths with
  | nil => exact ⟨[], ⟨[], .nil, rfl⟩, List.forall_mem_nil _, rfl⟩
  | cons text rest ih =>
      obtain ⟨found, hfound, hclean, hsources⟩ :=
        system.exists_expansion (Path.clean_ofText text)
      obtain ⟨queue, ⟨expansions, hexpansions, rfl⟩, hcleans, hrest⟩ := ih
      refine ⟨found ++ expansions.flatten, ⟨found :: expansions, .cons hfound hexpansions, rfl⟩,
        List.forall_mem_append.2 ⟨hclean, hcleans⟩, ?_⟩
      rw [List.flatMap_cons, hsources, hrest, List.map_append]

/-- A run that lists templates comes to what its paths come to, or stops; no two paths of it
have one text. -/
theorem exists_clean_run_eq (system : FileSystem) {arguments paths : List String}
    (hrequest : Request.ofArguments arguments = .ok (.list options paths))
    (surroundings : Surroundings) :
    ∃ queue, system.ExpandsAll paths queue ∧ (∀ path ∈ queue, path.Clean) ∧
      run arguments system.look surroundings =
        match queue.findSome? fun path => (system.verdict path).stop? with
        | some error => .error error
        | none =>
            .ok ((system.progress options queue).outcome options surroundings.wantsColour) := by
  obtain ⟨queue, hexpands, hclean, hsources⟩ := system.exists_queue paths
  refine ⟨queue, hexpands, hclean, ?_⟩
  have hstart : Progress.start = system.progress options [] := rfl
  rw [run_eq_foldlM system.look surroundings hrequest, hsources, hstart,
    foldlM_progress (List.forall_mem_nil _) hclean, List.nil_append]
  cases queue.findSome? fun path => (system.verdict path).stop? with
  | some error => rfl
  | none => rfl

/-- A run that lists templates comes to what its paths come to, or stops. -/
theorem exists_run_eq (system : FileSystem) {arguments paths : List String}
    (hrequest : Request.ofArguments arguments = .ok (.list options paths))
    (surroundings : Surroundings) :
    ∃ queue, system.ExpandsAll paths queue ∧
      run arguments system.look surroundings =
        match queue.findSome? fun path => (system.verdict path).stop? with
        | some error => .error error
        | none =>
            .ok ((system.progress options queue).outcome options surroundings.wantsColour) := by
  obtain ⟨queue, hexpands, -, hrun⟩ := system.exists_clean_run_eq hrequest surroundings
  exact ⟨queue, hexpands, hrun⟩

end FileSystem

end TemplateUsage.CommandLine
