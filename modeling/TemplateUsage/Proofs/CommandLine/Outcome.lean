import TemplateUsage.Proofs.CommandLine.Verdicts

set_option autoImplicit false

/-!
# What a run leaves

The output has a section for each template that is listed, in the order first named, and
a section is made from the path and the usages of its template alone (`sectionText`). What
cannot be listed is noted or reported as often as it is named, and the status tells
whether there is any. Main statement: `run_reports_queue`.
-/

namespace TemplateUsage.CommandLine

/-! ## Sections of the output -/

/-- The section of a template. -/
def sectionText (options : Options) (file : String) (usages : List Usage) : String :=
  if options.json then
    JsonText.string file ++ ": " ++ JsonText.array 1 (usages.map (usageJson options))
  else String.intercalate "\n" ((file ++ ":") :: usages.map (usageLine options))

/-- The output that consists of sections: a JSON object, or the sections one after the
other, each with a line end. -/
def printed (options : Options) (sections : List String) : String :=
  if options.json then JsonText.bracketed "\x7b" "\x7d" 0 sections ++ "\n"
  else String.join (sections.map (· ++ "\n"))

/-- Lines with line ends between them and one at the end. -/
theorem intercalate_append_newline {pieces : List String} (h : pieces ≠ []) :
    String.intercalate "\n" pieces ++ "\n" = String.join (pieces.map (· ++ "\n")) := by
  induction pieces with
  | nil => exact absurd rfl h
  | cons first rest ih =>
      cases rest with
      | nil => simp
      | cons second rest =>
          rw [String.intercalate_cons_cons, String.append_assoc, ih (List.cons_ne_nil _ _)]
          exact String.join_cons.symm

theorem join_flatMap {α : Type} (values : List α) (pieces : α → List String) :
    String.join (values.flatMap pieces) = String.join (values.map fun value =>
      String.join (pieces value)) := by
  induction values with
  | nil => rfl
  | cons value rest ih =>
      rw [List.flatMap_cons, String.join_append, ih, List.map_cons, String.join_cons]

/-- The lines of a listing with entries are not blank altogether. -/
theorem intercalate_lines_ne_empty (options : Options) {listing : Listing}
    (h : listing.entries ≠ []) : String.intercalate "\n" (listing.lines options) ≠ "" := by
  obtain ⟨entries⟩ := listing
  obtain ⟨⟨file, usages⟩, rest, rfl⟩ := List.exists_cons_of_ne_nil h
  rw [Listing.lines, List.flatMap_cons, List.cons_append]
  generalize usages.map (usageLine options) ++ _ = others
  cases others with
  | nil => simp
  | cons second others => simp [String.intercalate_cons_cons]

/-- The lines of a listing are those of its sections. -/
theorem lines_append_newline (options : Options) {listing : Listing} (h : listing.entries ≠ []) :
    String.intercalate "\n" (listing.lines options) ++ "\n" =
      String.join (listing.entries.map fun (file, usages) =>
        String.intercalate "\n" ((file ++ ":") :: usages.map (usageLine options)) ++ "\n") := by
  have hlines : listing.lines options ≠ [] := by
    obtain ⟨entries⟩ := listing
    obtain ⟨entry, rest, rfl⟩ := List.exists_cons_of_ne_nil h
    exact List.cons_ne_nil _ _
  rw [intercalate_append_newline hlines, Listing.lines, List.map_flatMap, join_flatMap]
  refine congrArg String.join (List.map_congr_left fun entry _ => ?_)
  exact (intercalate_append_newline (List.cons_ne_nil _ _)).symm

/-- The output of a run consists of the sections of what is listed. -/
theorem output_outcome (progress : Progress) (options : Options) (colour : Bool) :
    (progress.outcome options colour).output =
      printed options (progress.listing.entries.map fun (file, usages) =>
        sectionText options file usages) := by
  dsimp only [Progress.outcome, Listing.render, printed, sectionText]
  by_cases hjson : options.json = true
  · have hempty : (progress.listing.json options).isEmpty = false := by
      rw [← Bool.not_eq_true, String.isEmpty_iff, Listing.json, JsonText.object, JsonText.bracketed]
      split <;> simp
    simp only [if_pos hjson, hempty]
    rw [Listing.json, JsonText.object, List.map_map]
    rfl
  · simp only [if_neg hjson, String.isEmpty_iff]
    by_cases hentries : progress.listing.entries = []
    · rw [Listing.lines, hentries]
      rfl
    · rw [if_neg (intercalate_lines_ne_empty options hentries),
        lines_append_newline options hentries, List.map_map]
      rfl

/-! ## Runs -/

/-- What a run over the queue of paths leaves. -/
structure Reports (system : FileSystem) (options : Options) (colour : Bool) (queue : List Path)
    (outcome : Outcome) : Prop where
  /-- There is no number that cannot be read. -/
  goesOn : ∀ path ∈ queue, (system.verdict path).stop? = none
  /-- The templates that are listed have a section each, in the order first named. -/
  output : outcome.output = printed options (queue.eraseDups.filterMap fun path =>
    (system.verdict path).usages?.map (sectionText options path.text))
  /-- Every path that cannot be read is noted, and the templates that are rejected are
  reported together at the end. -/
  messages : outcome.messages =
    String.join ((queue.flatMap (fun path => notes options path (system.look path)) ++
      if system.rejections queue = [] then []
      else [(reportOn (system.rejections queue)).render colour]).map (· ++ "\n"))
  /-- The report has a diagnostic for every rejection. -/
  diagnostics : (reportOn (system.rejections queue)).diagnostics =
    (system.rejections queue).map SyntaxError.diagnostic
  /-- The run succeeds exactly when every path is listed. -/
  status : outcome.status =
    if queue.all fun path => (system.verdict path).usages?.isSome then 0 else 1

section

variable {system : FileSystem} {options : Options}

theorem hasProblems_reportOn (errors : List SyntaxError) :
    (reportOn errors).hasProblems = !errors.isEmpty := by
  rw [Report.hasProblems, diagnostics_reportOn, List.isEmpty_map]

/-- A run fails exactly when a path is not listed. -/
theorem failed_progress {queue : List Path}
    (hgoes : ∀ path ∈ queue, (system.verdict path).stop? = none) :
    (system.progress options queue).failed =
      !queue.all fun path => (system.verdict path).usages?.isSome := by
  rw [Progress.failed, FileSystem.progress, hasProblems_reportOn]
  induction queue with
  | nil => rfl
  | cons path rest ih =>
      obtain ⟨hpath, hrest⟩ := List.forall_mem_cons.1 hgoes
      dsimp only
      rw [List.any_cons, List.all_cons, FileSystem.rejections, List.filterMap_cons]
      -- what is not listed is unreadable or rejected, since nothing stops the run
      cases hverdict : system.verdict path with
      | listed usages => exact ih hrest
      | unreadable reason => rfl
      | rejected error => exact Bool.or_true _
      | stopped error =>
          rw [hverdict] at hpath
          cases hpath

/-- What a run gathers over paths, none of which stops it, is what it reports. -/
theorem reports_progress {queue : List Path} (colour : Bool)
    (hgoes : ∀ path ∈ queue, (system.verdict path).stop? = none) :
    Reports system options colour queue
      ((system.progress options queue).outcome options colour) where
  goesOn := hgoes
  output := by
    rw [output_outcome]
    dsimp only [FileSystem.progress]
    rw [List.map_filterMap]
    refine congrArg (printed options) (List.filterMap_congr fun path _ => ?_)
    rw [FileSystem.listed?, Option.map_map]
    rfl
  messages := by
    dsimp only [Progress.outcome, FileSystem.progress]
    rw [hasProblems_reportOn]
    cases system.rejections queue with
    | nil => rfl
    | cons error errors => rfl
  diagnostics := diagnostics_reportOn _
  status := by
    dsimp only [Progress.outcome]
    rw [failed_progress hgoes]
    cases queue.all fun path => (system.verdict path).usages?.isSome with
    | true => rfl
    | false => rfl

end

/-- Templates, one of them rejected, files that are none and one that cannot be opened. -/
def orchardTree : FileTree where
  files :=
    [⟨["srv", "app", "a.hbs"], .bytes [0x7b, 0x7b, 0x62, 0x7d, 0x7d]⟩,
      ⟨["srv", "app", "t", "notes.md"], .bytes [0x61]⟩,
      ⟨["srv", "app", "t", "x.hbs"], .bytes [0x7b, 0x7b, 0x23]⟩,
      ⟨["srv", "app", "t", "z.HBS"], .bytes [0x3c, 0x43, 0x2f, 0x3e]⟩,
      ⟨["srv", "app", "u.hbs"], .bytes [0xff]⟩,
      ⟨["srv", "b.hbs"], .bytes [0x7b, 0x7b, 0x63, 0x7d, 0x7d]⟩,
      ⟨["locked.hbs"], .unreadable ⟨13, "Permission denied", true⟩⟩]
  folders := []

theorem wellFormed_orchardTree : orchardTree.WellFormed := ⟨by decide, by decide⟩

/-- The templates seen from a folder two levels below the root. -/
def orchard : FileSystem := orchardTree.system wellFormed_orchardTree ["srv", "app"]

/-- A folder, a file named twice, one that is not a text, one that is missing, and files
outside the working folder, one of which cannot be opened. -/
def orchardPaths : List String :=
  ["a.hbs", "t", "u.hbs", "v.hbs", "../b.hbs", "/locked.hbs", "//srv/b.hbs", "a.hbs"]

end TemplateUsage.CommandLine
