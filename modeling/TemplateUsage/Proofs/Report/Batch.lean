import TemplateUsage.Proofs.CommandLine.Outcome
import TemplateUsage.Proofs.Diagnosis
import TemplateUsage.Proofs.Report.Gathering

set_option autoImplicit false

/-!
# Failures shown together and one by one

A failure shown on its own quotes the text it comes with; in a report it quotes the text that
the report has for its file, and that may have come with another failure. If failures located
in one file come with one text (`ShareTexts`), it does not matter which of them brought it, and
a report shows every failure as it is shown on its own. The rejected templates of a run are
such failures, since a path is judged by what stands there. Main statement:
`report_shows_each_as_alone`.
-/

namespace TemplateUsage

/-! ## Failures that share texts -/

namespace Failure

/-- Whether a failure is a problem of a template. -/
def isOfTemplate : Failure → Bool
  | .internal _ _ => false
  | .template _ _ => true

/-- The text that a failure comes with, wherever it is located. -/
def text? : Failure → Option String
  | .internal _ _ => none
  | .template _ source => source

/-- A failure brings its text for the file it is located in. -/
theorem textFor?_eq_some_iff {failure : Failure} {file text : String} :
    failure.textFor? file = some text ↔
      failure.text? = some text ∧ ∃ location ∈ failure.diagnostic.location,
        location.file = file := by
  rw [textFor?]
  cases failure with
  | internal message location => simp [source?, text?]
  | template diagnostic source =>
      cases hlocation : diagnostic.location with
      | none => simp [source?, Failure.diagnostic, hlocation]
      | some location =>
          cases source with
          | none => simp [source?, text?, hlocation]
          | some text =>
              simp [source?, text?, Failure.diagnostic, hlocation, and_comm, eq_comm]

/-- Shown on its own, a problem of a template is shown as in a report on nothing else. -/
theorem render_eq_of_isOfTemplate {failure : Failure} (h : failure.isOfTemplate = true) :
    failure.render = failure.diagnostic.render false (Report.ofFailures [failure]).sources := by
  cases failure with
  | internal message location => cases h
  | template diagnostic source =>
      rw [render]
      refine Diagnostic.render_congr (fun location _ => ?_) false
      rw [Report.find?_ofFailures, List.findSome?_singleton, textFor?]
      cases source? (.template diagnostic source) with
      | none => rfl
      | some named => exact Sources.find?_insert Sources.empty named.1 named.2 location.file

end Failure

/-- Failures located in one file come with one text, or without any. -/
def ShareTexts (failures : List Failure) : Prop :=
  ∀ first ∈ failures, ∀ second ∈ failures,
    ∀ here ∈ first.diagnostic.location, ∀ there ∈ second.diagnostic.location,
      here.file = there.file → first.text? = second.text?

namespace ShareTexts

variable {failures : List Failure} {failure : Failure}

/-- Whichever failure brought the text of a file, a failure located there comes with it. -/
theorem find?_ofFailures (hshare : ShareTexts failures) (hmem : failure ∈ failures)
    {location : Location} (hlocation : location ∈ failure.diagnostic.location) :
    (Report.ofFailures failures).sources.find? location.file =
      failure.textFor? location.file := by
  rw [Report.find?_ofFailures]
  cases hfound : failures.findSome? (·.textFor? location.file) with
  | none => exact (List.findSome?_eq_none_iff.1 hfound failure hmem).symm
  | some text =>
      obtain ⟨other, hother, hbrings⟩ := List.exists_of_findSome?_eq_some hfound
      obtain ⟨htext, there, hthere, hfile⟩ := Failure.textFor?_eq_some_iff.1 hbrings
      have hsame : failure.text? = other.text? :=
        hshare failure hmem other hother location hlocation there hthere hfile.symm
      exact (Failure.textFor?_eq_some_iff.2 ⟨hsame.trans htext, location, hlocation, rfl⟩).symm

/-- A report on failures that share texts shows each as a report on it alone does. -/
theorem render_diagnostic (hshare : ShareTexts failures) (hmem : failure ∈ failures)
    (colour : Bool) :
    failure.diagnostic.render colour (Report.ofFailures failures).sources =
      failure.diagnostic.render colour (Report.ofFailures [failure]).sources := by
  refine Diagnostic.render_congr (fun location hlocation => ?_) colour
  rw [hshare.find?_ofFailures hmem hlocation, Report.find?_ofFailures, List.findSome?_singleton]

end ShareTexts

/-! ## What is shown -/

/-- The last line of what is shown of problems. -/
def summaryLine (count : Nat) : String :=
  "error: " ++ toString count ++ (if count = 1 then " template" else " templates") ++
    " could not be parsed"

theorem renderLines_summary (count : Nat) :
    renderLines false [Report.summary count] = summaryLine count := by
  have hline : renderLines false [Report.summary count] =
      "error" ++ (": " ++ toString count ++ " template" ++ (if count = 1 then "" else "s") ++
        " could not be parsed") := by
    simp [renderLines, Report.summary, Segment.render]
  have hword : " template" ++ (if count = 1 then "" else "s") =
      if count = 1 then " template" else " templates" := by
    split <;> rfl
  rw [hline, summaryLine, ← hword]
  simp only [← String.append_assoc]
  rfl

/-- Failures as each is shown on its own, and their number. -/
def shownAlone (failures : List Failure) : String :=
  String.intercalate "\n\n" (failures.map Failure.render ++ [summaryLine failures.length])

/-- A report on failures that share texts shows what they show alone. -/
theorem ShareTexts.render_ofFailures {failures : List Failure} (hshare : ShareTexts failures)
    (hne : failures ≠ []) (htemplate : ∀ failure ∈ failures, failure.isOfTemplate = true) :
    (Report.ofFailures failures).render false = shownAlone failures := by
  have hcount : failures.length ≠ 0 := by rwa [Ne, List.length_eq_zero_iff]
  have hproblems : (failures.map Failure.diagnostic).map
      (fun diagnostic => diagnostic.render false (Report.ofFailures failures).sources) =
      failures.map Failure.render := by
    rw [List.map_map]
    refine List.map_congr_left fun failure hmem => ?_
    rw [Failure.render_eq_of_isOfTemplate (htemplate failure hmem)]
    exact hshare.render_diagnostic hmem false
  rw [Report.render, shownAlone, Report.diagnostics_ofFailures, hproblems,
    List.length_map, if_neg hcount, renderLines_summary]

/-! ## Rejected templates of a run -/

namespace CommandLine

variable {system : FileSystem} {options : Options}

/-- A template is rejected under the text of its path. -/
theorem FileSystem.file_of_rejection {path : Path} {error : SyntaxError}
    (h : (system.verdict path).rejection? = some error) : error.location.file = path.text := by
  have hverdict : system.verdict path = .rejected error := by
    cases hcase : system.verdict path with
    | rejected other => rw [hcase] at h; cases h; rfl
    | _ => rw [hcase] at h; cases h
  rw [FileSystem.verdict] at hverdict
  obtain ⟨reason, hreason⟩ | ⟨bytes, text, -, -, htext⟩ := judge_cases path (system.look path)
  · rw [hreason] at hverdict
    cases hverdict
  · rw [htext, judgeText] at hverdict
    split at hverdict
    · cases hverdict
    · rename_i hparse
      cases hverdict
      obtain ⟨rejection, rfl, -⟩ := Template.rejection_of_parse hparse
      rfl
    · cases hverdict

/-- Two rejections located in one file are those of one path. -/
theorem FileSystem.shareTexts_rejections {queue : List Path} (hclean : ∀ path ∈ queue, path.Clean) :
    ShareTexts ((system.rejections queue).map Failure.ofSyntaxError) := by
  intro first hfirst second hsecond here hhere there hthere hfile
  obtain ⟨error, herror, rfl⟩ := List.mem_map.1 hfirst
  obtain ⟨other, hother, rfl⟩ := List.mem_map.1 hsecond
  cases hhere
  cases hthere
  obtain ⟨path, hpath, hrejected⟩ := List.mem_filterMap.1 herror
  obtain ⟨source, hsource, hrejects⟩ := List.mem_filterMap.1 hother
  rw [file_of_rejection hrejected, file_of_rejection hrejects] at hfile
  obtain rfl := Path.text_injective (hclean path hpath) (hclean source hsource) hfile
  rw [hrejected] at hrejects
  cases hrejects
  rfl

/-- What a run over the queue of paths says when it says of each rejected template what that
shows alone. -/
def FileSystem.messagesAlone (system : FileSystem) (options : Options)
    (queue : List Path) : String :=
  String.join ((queue.flatMap (fun path => notes options path (system.look path)) ++
    if system.rejections queue = [] then []
    else [shownAlone ((system.rejections queue).map Failure.ofSyntaxError)]).map (· ++ "\n"))

/-- Without colour, the report on the rejected templates of a run shows what they show
alone. -/
theorem Reports.messages_eq {queue : List Path} {outcome : Outcome}
    (hclean : ∀ path ∈ queue, path.Clean) (h : Reports system options false queue outcome) :
    outcome.messages = system.messagesAlone options queue := by
  have hreport (hne : system.rejections queue ≠ []) :
      (reportOn (system.rejections queue)).render false =
        shownAlone ((system.rejections queue).map Failure.ofSyntaxError) := by
    rw [reportOn_eq_ofFailures]
    refine (FileSystem.shareTexts_rejections hclean).render_ofFailures
      (by rwa [Ne, List.map_eq_nil_iff]) ?_
    intro failure hmem
    obtain ⟨error, -, rfl⟩ := List.mem_map.1 hmem
    rfl
  rw [h.messages, FileSystem.messagesAlone]
  split
  · rfl
  · rename_i hne
    rw [hreport hne]

end CommandLine

open CommandLine

/-- A report on problems of templates, such that those located in one file come with one
text, shows without colour each problem as it is shown alone, and their number, with blank
lines between. A run that lists templates reports such problems: what it says of the
templates it rejects is what each of them shows alone. -/
theorem report_shows_each_as_alone :
    (∀ failures : List Failure, failures ≠ [] →
      (∀ failure ∈ failures, failure.isOfTemplate = true) → ShareTexts failures →
      (Report.ofFailures failures).render false = shownAlone failures) ∧
    ∀ (system : FileSystem) (options : Options) (arguments paths : List String)
      (surroundings : Surroundings) (outcome : Outcome),
      Request.ofArguments arguments = .ok (.list options paths) →
      run arguments system.look surroundings = .ok outcome →
      ∃ queue, system.ExpandsAll paths queue ∧
        ShareTexts ((system.rejections queue).map Failure.ofSyntaxError) ∧
        (surroundings.wantsColour = false →
          outcome.messages = system.messagesAlone options queue) := by
  refine ⟨fun failures hne htemplate hshare => hshare.render_ofFailures hne htemplate, ?_⟩
  intro system options arguments paths surroundings outcome hrequest hrun
  obtain ⟨queue, hexpands, hclean, heq⟩ := system.exists_clean_run_eq hrequest surroundings
  refine ⟨queue, hexpands, FileSystem.shareTexts_rejections hclean, fun hcolour => ?_⟩
  rw [hrun, hcolour] at heq
  split at heq
  · cases heq
  · rename_i hnone
    cases heq
    exact (reports_progress false (List.findSome?_eq_none_iff.1 hnone)).messages_eq hclean

/-- Problems of two lines of one file, of a place without a text, of no place at all, and of
a line that the file does not have. -/
def hedgeFailures : List Failure :=
  [.template ⟨"closing tag </b> does not match <a>", some ⟨"h.hbs", 1, 4, 3, 7, 1, 8⟩,
      some "T0003", some "close <a> first"⟩ (some "<a></b>\n\x7b\x7b#"),
    .template ⟨"unreadable", some ⟨"k.hbs", 1, 1, 0, 1, 1, 2⟩, none, none⟩ none,
    .template ⟨"unexpected end of input", some ⟨"h.hbs", 2, 4, 11, 11, 2, 4⟩,
      some "T0002", none⟩ (some "<a></b>\n\x7b\x7b#"),
    .template ⟨"lost", none, some "", some ""⟩ (some "\x7b\x7ba\x7d\x7d"),
    .template ⟨"late", some ⟨"h.hbs", 9, 1, 0, 0, 9, 1⟩, none, none⟩ (some "<a></b>\n\x7b\x7b#")]

/-- A report on several failures of one file and others, and a run that rejects a template
twice. -/
theorem report_shows_each_as_alone_hedge :
    (hedgeFailures ≠ [] ∧ (∀ failure ∈ hedgeFailures, failure.isOfTemplate = true) ∧
      ShareTexts hedgeFailures ∧
      (Report.ofFailures hedgeFailures).render false = shownAlone hedgeFailures) ∧
    ∃ outcome queue,
      run ["t/x.hbs", "/srv/b.hbs", "t/x.hbs"] orchard.look ⟨none, none, false⟩ = .ok outcome ∧
      orchard.ExpandsAll ["t/x.hbs", "/srv/b.hbs", "t/x.hbs"] queue ∧
      (orchard.rejections queue).length = 2 ∧
      ShareTexts ((orchard.rejections queue).map Failure.ofSyntaxError) ∧
      outcome.messages = orchard.messagesAlone Options.plain queue := by
  have hne : hedgeFailures ≠ [] := List.cons_ne_nil _ _
  have htemplate : ∀ failure ∈ hedgeFailures, failure.isOfTemplate = true := by decide
  have hshare : ShareTexts hedgeFailures := by
    unfold ShareTexts
    decide
  refine ⟨⟨hne, htemplate, hshare,
    report_shows_each_as_alone.1 hedgeFailures hne htemplate hshare⟩, ?_⟩
  have hok : (run ["t/x.hbs", "/srv/b.hbs", "t/x.hbs"] orchard.look
      ⟨none, none, false⟩).isOk = true := by
    decide +kernel
  obtain ⟨outcome, hrun⟩ := Template.exists_of_isOk hok
  obtain ⟨queue, hexpands, hshares, hmessages⟩ := report_shows_each_as_alone.2 orchard
    Options.plain _ ["t/x.hbs", "/srv/b.hbs", "t/x.hbs"] _ outcome rfl hrun
  refine ⟨outcome, queue, hrun, hexpands, ?_, hshares, hmessages (by decide +kernel)⟩
  -- no argument is a folder, so each stands for itself
  have hself {text : String} {found : List Path} (hfile : orchard.IsFile (Path.ofText text))
      (h : orchard.Expands (Path.ofText text) found) : found = [Path.ofText text] := by
    obtain ⟨content, hlook⟩ := hfile
    rwa [FileSystem.Expands, hlook] at h
  have hx : orchard.IsFile (Path.ofText "t/x.hbs") :=
    ⟨.bytes [0x7b, 0x7b, 0x23], by decide +kernel⟩
  have hb : orchard.IsFile (Path.ofText "/srv/b.hbs") :=
    ⟨.bytes [0x7b, 0x7b, 0x63, 0x7d, 0x7d], by decide +kernel⟩
  obtain ⟨expansions, hall, rfl⟩ := hexpands
  obtain _ | ⟨hfirst, _ | ⟨hsecond, _ | ⟨hthird, _ | _⟩⟩⟩ := hall
  rw [hself hx hfirst, hself hb hsecond, hself hx hthird]
  decide +kernel

end TemplateUsage
