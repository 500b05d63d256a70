import TemplateUsage.Proofs.CommandLine.Outcome
import TemplateUsage.Proofs.Overlong

set_option autoImplicit false

/-!
# What stops a run

A template that is rejected does not keep the others from being listed. Only an integer of
too many digits stops a run, and then nothing is listed at all. Main statement:
`run_keeps_failures_local`; `run_stops_at_ones` is a run that stops.
-/

namespace TemplateUsage.CommandLine

/-! ## Sections are printed whole -/

/-- The part stands in the text as it is. -/
def Contains (text part : String) : Prop := ∃ front back, text = front ++ part ++ back

theorem Contains.refl (text : String) : Contains text text := ⟨"", "", by simp⟩

theorem Contains.after {text part : String} (h : Contains text part) (more : String) :
    Contains (more ++ text) part := by
  obtain ⟨front, back, rfl⟩ := h
  exact ⟨more ++ front, back, by simp only [String.append_assoc]⟩

theorem Contains.before {text part : String} (h : Contains text part) (more : String) :
    Contains (text ++ more) part := by
  obtain ⟨front, back, rfl⟩ := h
  exact ⟨front, back ++ more, by simp only [String.append_assoc]⟩

theorem contains_intercalate (separator : String) {pieces : List String} {piece : String}
    (h : piece ∈ pieces) : Contains (String.intercalate separator pieces) piece := by
  induction pieces with
  | nil => cases h
  | cons first rest ih =>
      cases rest with
      | nil =>
          obtain rfl := List.mem_singleton.1 h
          rw [String.intercalate_singleton]
          exact .refl _
      | cons second rest =>
          rw [String.intercalate_cons_cons]
          rcases List.mem_cons.1 h with rfl | hmem
          · exact ((Contains.refl _).before _).before _
          · exact (ih hmem).after _

/-- Every section stands in the output. -/
theorem contains_printed (options : Options) {sections : List String} {part : String}
    (h : part ∈ sections) : Contains (printed options sections) part := by
  unfold printed
  split
  · rw [JsonText.bracketed, if_neg (by simpa using List.ne_nil_of_mem h)]
    exact ((((contains_intercalate _ h).after _).before _).before _).before _
  · obtain ⟨before, after, rfl⟩ := List.append_of_mem h
    rw [List.map_append, List.map_cons, String.join_append, String.join_cons]
    exact (((Contains.refl _).before _).before _).after _

/-! ## Runs -/

/-- The text of the file that a path leads to. -/
def FileSystem.HoldsText (system : FileSystem) (path : Path) (text : String) : Prop :=
  ∃ bytes, system.look path = .file (.bytes bytes) ∧ Text.ofFileBytes bytes = .ok text

/-- How far a template that fails affects the result of a run over the queue of paths. -/
structure KeepsLocal (system : FileSystem) (options : Options) (queue : List Path)
    (result : Except NumeralError Outcome) : Prop where
  /-- The run stops at the first number that is not read. -/
  stops : ∀ error, result = .error error ↔
    (queue.findSome? fun path => (system.verdict path).stop?) = some error
  /-- The number is an integer of a template, and it has too many digits. -/
  overlong : ∀ path ∈ queue, ∀ error, (system.verdict path).stop? = some error →
    ∃ text, system.HoldsText path text ∧ Template.HasOverlong text error
  /-- A run that does not stop has a status, and what is well-formed is listed. -/
  lists : ∀ outcome, result = .ok outcome → outcome.status ≤ 1 ∧
    ∀ path ∈ queue, ∀ usages, system.verdict path = .listed usages →
      Contains outcome.output (sectionText options path.text usages)

variable {system : FileSystem} {options : Options}

/-- A verdict that stops the run comes from a text with a numeral too long to be read. -/
theorem exists_overlong_of_verdict {path : Path} {error : NumeralError}
    (h : (system.verdict path).stop? = some error) :
    ∃ text, system.HoldsText path text ∧ Template.HasOverlong text error := by
  rw [FileSystem.verdict] at h
  obtain ⟨reason, hreason⟩ | ⟨bytes, text, hlook, htext, hverdict⟩ :=
    judge_cases path (system.look path)
  · rw [hreason] at h
    cases h
  · rw [hverdict, judgeText] at h
    cases hparse : Template.parse path.text text with
    | ok root => rw [hparse] at h; cases h
    | error fault =>
        rw [hparse] at h
        cases fault with
        | rejected error => cases h
        | numeral error =>
            cases h
            exact ⟨text, ⟨bytes, hlook, htext⟩, Template.hasOverlong_of_parse hparse⟩

/-- Every template that is listed has its section in what a run reports. -/
theorem Reports.contains_section {colour : Bool} {queue : List Path} {outcome : Outcome}
    (h : Reports system options colour queue outcome) {path : Path} (hpath : path ∈ queue)
    {usages : List Usage} (hverdict : system.verdict path = .listed usages) :
    Contains outcome.output (sectionText options path.text usages) := by
  rw [h.output]
  refine contains_printed options (List.mem_filterMap.2 ⟨path, List.mem_eraseDups.2 hpath, ?_⟩)
  rw [hverdict]
  rfl

/-- A run that lists templates is stopped by nothing but an integer of too many digits.
When it is not stopped, it ends with a status, and every template that can be parsed is
listed, whatever becomes of the others. -/
theorem run_keeps_failures_local (system : FileSystem) {arguments paths : List String}
    (hrequest : Request.ofArguments arguments = .ok (.list options paths))
    (surroundings : Surroundings) :
    ∃ queue, system.ExpandsAll paths queue ∧
      KeepsLocal system options queue (run arguments system.look surroundings) := by
  obtain ⟨queue, hexpands, hrun⟩ := system.exists_run_eq hrequest surroundings
  -- the run is an error exactly when one of the verdicts stops it, by how it is computed
  refine ⟨queue, hexpands, ?_, fun path _ error => exists_overlong_of_verdict, ?_⟩
  · intro error
    rw [hrun]
    cases queue.findSome? fun path => (system.verdict path).stop? with
    | some first => rw [Except.error.injEq, Option.some.injEq]
    | none => exact ⟨nofun, nofun⟩
  · intro outcome hok
    rw [hrun] at hok
    split at hok
    · cases hok
    · rename_i hnone
      cases hok
      have hreports : Reports system options surroundings.wantsColour queue _ :=
        reports_progress _ (List.findSome?_eq_none_iff.1 hnone)
      refine ⟨?_, fun path hpath usages hverdict => hreports.contains_section hpath hverdict⟩
      rw [hreports.status]
      split <;> omega

/-- A template that is rejected stands among those of the run. -/
theorem run_keeps_failures_local_orchard :
    ∃ queue, orchard.ExpandsAll orchardPaths queue ∧
      KeepsLocal orchard Options.plain queue (run orchardPaths orchard.look ⟨none, none, false⟩) :=
  run_keeps_failures_local orchard rfl _

/-! ## A run that stops -/

/-- Bytes below 128 are decoded one by one. -/
theorem decodeFrom_of_ascii {bytes : List UInt8} (h : ∀ byte ∈ bytes, byte.toNat < 0x80)
    (position : Nat) (done : List Char) :
    Text.decodeFrom position none done bytes =
      .ok (done.reverse ++ bytes.map fun byte => Char.ofNat byte.toNat) := by
  induction bytes generalizing position done with
  | nil => rw [Text.decodeFrom, List.map_nil, List.append_nil]
  | cons byte rest ih =>
      obtain ⟨hbyte, hrest⟩ := List.forall_mem_cons.1 h
      rw [Text.decodeFrom, if_pos hbyte, ih hrest, List.reverse_cons, List.append_assoc]
      rfl

theorem plainLineEnds_of_not_mem {text : List Char} (h : '\r' ∉ text) :
    Text.plainLineEnds text = text := by
  fun_induction Text.plainLineEnds text with
  | case1 => rfl
  | case2 rest ih => exact absurd List.mem_cons_self h
  | case3 rest hne ih => exact absurd List.mem_cons_self h
  | case4 c rest hne hne' ih => rw [ih fun hmem => h (List.mem_cons_of_mem _ hmem)]

/-- The bytes of an integer of ones between braces. -/
def onesBytes (count : Nat) : List UInt8 :=
  0x7b :: 0x7b :: (List.replicate count 0x31 ++ [0x7d, 0x7d])

theorem ofFileBytes_ones (count : Nat) :
    Text.ofFileBytes (onesBytes count) = .ok (String.ofList (onesText count)) := by
  have hascii : ∀ byte ∈ onesBytes count, byte.toNat < 0x80 := by
    refine List.forall_mem_cons.2 ⟨by decide, List.forall_mem_cons.2 ⟨by decide,
      List.forall_mem_append.2 ⟨fun byte hbyte => ?_, by simp⟩⟩⟩
    rw [List.eq_of_mem_replicate hbyte]
    decide
  have hchars : (onesBytes count).map (fun byte => Char.ofNat byte.toNat) = onesText count := by
    rw [onesBytes, List.map_cons, List.map_cons, List.map_append, List.map_replicate]
    rfl
  have hplain : '\r' ∉ onesText count := by
    simp [onesText, onesClosed, List.mem_replicate]
  rw [Text.ofFileBytes, Text.decodeUtf8, decodeFrom_of_ascii hascii, hchars]
  show Except.ok (String.ofList (Text.plainLineEnds (onesText count))) = _
  rw [plainLineEnds_of_not_mem hplain]

/-- A template, and one with an integer of ones. -/
def onesTree (count : Nat) : FileTree where
  files := [⟨["a.hbs"], .bytes [0x7b, 0x7b, 0x62, 0x7d, 0x7d]⟩, ⟨["n.hbs"], onesBytes count⟩]
  folders := []

theorem wellFormed_onesTree (count : Nat) : (onesTree count).WellFormed where
  named := by
    have hnames : ∀ names ∈ [["a.hbs"], ["n.hbs"]], ∀ name ∈ names, IsFileName name := by decide
    exact hnames
  distinct := by
    have hnames : [["a.hbs"], ["n.hbs"]].Nodup := by decide
    exact hnames

/-- The two files, in the root folder. -/
def onesSystem (count : Nat) : FileSystem := (onesTree count).system (wellFormed_onesTree count) []

theorem look_first (count : Nat) :
    (onesSystem count).look ⟨.relative, ["a.hbs"]⟩ =
      .file (.bytes [0x7b, 0x7b, 0x62, 0x7d, 0x7d]) :=
  (wellFormed_onesTree count).foundAt_eq_file_iff.2 List.mem_cons_self

theorem look_second (count : Nat) :
    (onesSystem count).look ⟨.relative, ["n.hbs"]⟩ = .file (.bytes (onesBytes count)) :=
  (wellFormed_onesTree count).foundAt_eq_file_iff.2 (List.mem_cons_of_mem _ List.mem_cons_self)

theorem verdict_template (count : Nat) :
    (onesSystem count).verdict ⟨.relative, ["a.hbs"]⟩ =
      judge ⟨.relative, ["a.hbs"]⟩ (.file (.bytes [0x7b, 0x7b, 0x62, 0x7d, 0x7d])) := by
  rw [FileSystem.verdict, look_first]

/-- A numeral of more digits than the limit stops the run. -/
theorem verdict_ones {count : Nat} (hlong : Numeral.digitLimit < count) :
    (onesSystem count).verdict ⟨.relative, ["n.hbs"]⟩ = .stopped (.tooManyDigits count) := by
  rw [FileSystem.verdict, look_second, judge, ofFileBytes_ones]
  dsimp only [judgeText]
  rw [Template.parse_ones _ hlong]

/-- An integer of too many digits stops the run, although another template is well-formed. -/
theorem run_onesSystem {count : Nat} (hlong : Numeral.digitLimit < count) :
    run ["a.hbs", "n.hbs"] (onesSystem count).look ⟨none, none, false⟩ =
      .error (.tooManyDigits count) := by
  have hrequest : Request.ofArguments ["a.hbs", "n.hbs"] =
      .ok (.list Options.plain ["a.hbs", "n.hbs"]) := rfl
  have hfirst : Path.ofText "a.hbs" = ⟨.relative, ["a.hbs"]⟩ := by decide
  have hsecond : Path.ofText "n.hbs" = ⟨.relative, ["n.hbs"]⟩ := by decide
  have hquiet : ((onesSystem count).verdict ⟨.relative, ["a.hbs"]⟩).stop? = none := by
    rw [verdict_template]
    decide +kernel
  obtain ⟨queue, ⟨expansions, hexpansions, rfl⟩, hrun⟩ :=
    (onesSystem count).exists_run_eq hrequest ⟨none, none, false⟩
  -- both arguments are files, so they stand for themselves
  obtain ⟨found, rest, hfound, hrest, rfl⟩ := List.forall₂_cons_left_iff.1 hexpansions
  obtain ⟨others, nothing, hothers, hnothing, rfl⟩ := List.forall₂_cons_left_iff.1 hrest
  rw [List.forall₂_nil_left_iff] at hnothing
  rw [hfirst, FileSystem.Expands, look_first] at hfound
  rw [hsecond, FileSystem.Expands, look_second] at hothers
  subst hfound hothers hnothing
  rw [hrun, List.flatten_cons, List.singleton_append, List.findSome?_cons, hquiet,
    List.flatten_cons, List.singleton_append, List.findSome?_cons, verdict_ones hlong]
  rfl

/-- The run over the two files stops at the integer, although both files can be read and
the first is a template. -/
theorem run_stops_at_ones :
    (∀ name ∈ ["a.hbs", "n.hbs"], ∃ text, (onesSystem 4301).HoldsText (Path.ofText name) text) ∧
      ((onesSystem 4301).verdict (Path.ofText "a.hbs")).usages?.isSome = true ∧
      run ["a.hbs", "n.hbs"] (onesSystem 4301).look ⟨none, none, false⟩ =
        .error (.tooManyDigits 4301) := by
  have hfirst : Path.ofText "a.hbs" = ⟨.relative, ["a.hbs"]⟩ := by decide
  have hsecond : Path.ofText "n.hbs" = ⟨.relative, ["n.hbs"]⟩ := by decide
  refine ⟨List.forall_mem_cons.2 ⟨?_, List.forall_mem_singleton.2 ?_⟩, ?_,
    run_onesSystem (by decide)⟩
  · have htext : ∃ text, Text.ofFileBytes [0x7b, 0x7b, 0x62, 0x7d, 0x7d] = .ok text :=
      Template.exists_of_isOk (by decide +kernel)
    exact htext.imp fun text htext => ⟨_, hfirst ▸ look_first 4301, htext⟩
  · exact ⟨_, _, hsecond ▸ look_second 4301, ofFileBytes_ones 4301⟩
  · rw [hfirst, verdict_template]
    decide +kernel

end TemplateUsage.CommandLine
