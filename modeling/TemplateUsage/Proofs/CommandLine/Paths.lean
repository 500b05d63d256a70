import TemplateUsage.CommandLine.Path
import TemplateUsage.Proofs.Snippet

set_option autoImplicit false

/-!
# Paths and their texts

A path whose names say something is read back from its text, so two such paths with one
text are the same (`Path.text_injective`). Whether a path is that of a template can be
told from its last name, and of the letters of this name only those of the English
alphabet count, in either case (`isTemplatePath_text_iff`).
-/

namespace TemplateUsage.CommandLine

open Text

/-! ## Reading a path back -/

/-- Every name of the path says something and is a single name. -/
def Path.Clean (path : Path) : Prop :=
  ∀ name ∈ path.names, Path.isName name.toList = true ∧ '/' ∉ name.toList

theorem not_mem_of_mem_splitAtChar {separator : Char} {cs : List Char} :
    ∀ piece ∈ splitAtChar separator cs, separator ∉ piece := by
  induction cs with
  | nil => simp [splitAtChar]
  | cons c rest ih =>
      rw [splitAtChar]
      split
      · simpa using ih
      · rename_i hne
        cases hpieces : splitAtChar separator rest with
        | nil => simpa [consPiece] using Ne.symm hne
        | cons first pieces =>
            rw [hpieces] at ih
            obtain ⟨hfirst, hrest⟩ := List.forall_mem_cons.1 ih
            refine List.forall_mem_cons.2 ⟨?_, hrest⟩
            simpa [Ne.symm hne] using hfirst

/-- A path that is read has neither empty names nor slashes in a name. -/
theorem Path.clean_ofText (text : String) : (Path.ofText text).Clean := by
  intro name hname
  obtain ⟨piece, hpiece, rfl⟩ := List.mem_map.1 hname
  obtain ⟨hmem, hsaid⟩ := List.mem_filter.1 hpiece
  rw [String.toList_ofList]
  exact ⟨hsaid, not_mem_of_mem_splitAtChar piece hmem⟩

theorem Path.Clean.below {path : Path} {names : List String} (hpath : path.Clean)
    (hnames : ∀ name ∈ names, Path.isName name.toList = true ∧ '/' ∉ name.toList) :
    (path.below names).Clean :=
  List.forall_mem_append.2 ⟨hpath, hnames⟩

/-- The names of a path as characters, with slashes between them. -/
def Path.chars (path : Path) : List Char :=
  ['/'].intercalate (path.names.map String.toList)

/-- The number of slashes a root is written with. -/
def PathRoot.slashes : PathRoot → Nat
  | .relative => 0
  | .absolute => 1
  | .doubled => 2

/-- The text of a path that starts with a root, or has a name. -/
theorem Path.toList_text {path : Path} (h : path.root = .relative → path.names ≠ []) :
    path.text.toList = List.replicate path.root.slashes '/' ++ path.chars := by
  obtain ⟨root, names⟩ := path
  cases root with
  | relative =>
      have hne : names.isEmpty = false := by simpa using h rfl
      simp [text, chars, hne, String.toList_intercalate, PathRoot.slashes]
  | absolute | doubled =>
      simp [text, chars, String.toList_intercalate, PathRoot.slashes, List.replicate]

/-- Names that say something do not start with a slash. -/
theorem Path.Clean.head?_chars {path : Path} (h : path.Clean) :
    ∀ c ∈ path.chars.head?, (c == '/') = false := by
  obtain ⟨root, names⟩ := path
  cases names with
  | nil => nofun
  | cons name rest =>
      obtain ⟨hsaid, hslash⟩ := h name List.mem_cons_self
      have hstarts : ∃ more, Path.chars ⟨root, name :: rest⟩ = name.toList ++ more := by
        cases rest with
        | nil => exact ⟨[], by simp [chars]⟩
        | cons next rest => exact ⟨_, by simp [chars, List.intercalate_cons_cons]; rfl⟩
      obtain ⟨more, hmore⟩ := hstarts
      rw [hmore]
      cases hname : name.toList with
      | nil => simp [hname, isName] at hsaid
      | cons c cs =>
          rintro _ ⟨⟩
          rw [hname] at hslash
          simpa using Ne.symm (List.ne_of_not_mem_cons hslash)

theorem filter_splitAtChar_slashes (count : Nat) (cs : List Char) :
    (splitAtChar '/' (List.replicate count '/' ++ cs)).filter Path.isName =
      (splitAtChar '/' cs).filter Path.isName := by
  induction count with
  | zero => rfl
  | succ count ih =>
      rw [List.replicate_succ, List.cons_append, splitAtChar, if_pos rfl, List.filter_cons_of_neg
        (by decide), ih]

theorem Path.Clean.filter_splitAtChar_chars {path : Path} (h : path.Clean) :
    (splitAtChar '/' path.chars).filter Path.isName = path.names.map String.toList := by
  by_cases hnames : path.names = []
  · rw [chars, hnames]
    rfl
  · have hslash : ∀ cs ∈ path.names.map String.toList, '/' ∉ cs :=
      List.forall_mem_map.2 fun name hname => (h name hname).2
    rw [splitAtChar_eq_splitOn, chars, List.splitOn_intercalate '/' hslash (by simpa using hnames),
      List.filter_eq_self]
    exact List.forall_mem_map.2 fun name hname => (h name hname).1

theorem Path.Clean.rootOf_slashes {path : Path} (h : path.Clean) :
    Path.rootOf (List.replicate path.root.slashes '/' ++ path.chars) = path.root := by
  have hrun : (List.replicate path.root.slashes '/' ++ path.chars).takeWhile (· == '/') =
      List.replicate path.root.slashes '/' := by
    refine Scan.takeWhile_run (fun c hc => ?_) h.head?_chars
    rw [List.eq_of_mem_replicate hc]
    rfl
  rw [rootOf, hrun, List.length_replicate]
  cases path.root <;> rfl

/-- A path is read back from its text. -/
theorem Path.Clean.ofText_text {path : Path} (h : path.Clean) : Path.ofText path.text = path := by
  by_cases hbare : path.root = .relative ∧ path.names = []
  · obtain ⟨root, names⟩ := path
    obtain ⟨rfl, rfl⟩ := hbare
    decide
  · have htext := Path.toList_text fun hroot hnames => hbare ⟨hroot, hnames⟩
    rw [ofText, htext, h.rootOf_slashes, filter_splitAtChar_slashes, h.filter_splitAtChar_chars,
      List.map_map]
    simp [Function.comp_def]

/-- Two paths are written alike only if they are one path. -/
theorem Path.text_injective {first second : Path} (hfirst : first.Clean) (hsecond : second.Clean)
    (h : first.text = second.text) : first = second := by
  rw [← hfirst.ofText_text, h, hsecond.ofText_text]

/-! ## Letter case -/

/-- The endings of the names of templates. -/
def templateEndings : List String := [".hbs", ".handlebars"]

/-- Whether a name ends in one of the endings of templates, in any letter case. -/
def IsTemplateName (name : String) : Prop :=
  ∃ ending ∈ templateEndings, ∃ front back,
    name.toList = front ++ back ∧ back.map Char.toLower = ending.toList

/-- The characters of the endings. -/
def endingChars : List Char := ['.', 'a', 'b', 'd', 'e', 'h', 'l', 'n', 'r', 's']

/-- A text and its lowercase form. What is not in ASCII becomes something that ends in no
character of an ending. -/
inductive Lowered : List Char → List Char → Prop where
  | nil : Lowered [] []
  | ascii {c : Char} {cs out : List Char} : Lowered cs out → Lowered (c :: cs) (c.toLower :: out)
  | other (front : List Char) {c last : Char} {cs out : List Char} : 128 ≤ c.toNat →
      last ∉ endingChars → Lowered cs out → Lowered (c :: cs) (front ++ last :: out)

theorem toNat_of_mem_endingChars :
    ∀ c ∈ endingChars, 0 < c.toNat ∧ c.toNat < 128 ∧ c.toNat ≠ 0x6b := by
  simp [endingChars]

theorem ofNat_not_mem_endingChars {n : Nat} (h : 128 ≤ n ∨ n = 0x6b) :
    Char.ofNat n ∉ endingChars := by
  intro hmem
  have hcode := toNat_of_mem_endingChars _ hmem
  have hvalue : (Char.ofNat n).toNat = n ∨ (Char.ofNat n).toNat = 0 := by
    by_cases hvalid : n.isValidChar
    · have hchar : Char.ofNat n = Char.ofNatAux n hvalid := dif_pos hvalid
      rw [hchar]
      exact .inl rfl
    · have hchar : Char.ofNat n = '\x00' := dif_neg hvalid
      rw [hchar]
      exact .inr rfl
  omega

theorem target_lowercaseRuns : ∀ run ∈ lowercaseRuns,
    128 ≤ run.target ∨ run.target = 0x6b ∧ run.first = run.last := by
  decide +kernel

/-- The lower case of a character beyond the first 128 ends in one that no template ending has. -/
theorem exists_lowerChar {c : Char} (h : 128 ≤ c.toNat) :
    ∃ front last, lowerChar c = front ++ [last] ∧ last ∉ endingChars := by
  rw [lowerChar, if_neg (Nat.not_lt.2 h), mapCode]
  split
  · rename_i images himages
    rw [lowercaseExpansions, List.lookup_cons] at himages
    split at himages
    · cases himages
      exact ⟨['i'], Char.ofNat 0x307, rfl, by decide⟩
    · cases himages
  · refine ⟨[], _, rfl, ?_⟩
    cases himage : CaseRun.image? lowercaseRuns c.toNat with
    | none =>
        intro hmem
        have hcode := toNat_of_mem_endingChars c hmem
        omega
    | some image =>
        obtain ⟨run, hrun, rfl⟩ := Option.map_eq_some_iff.1 himage
        have hholds := List.find?_some hrun
        refine ofNat_not_mem_endingChars ?_
        rcases target_lowercaseRuns run (List.mem_of_find?_eq_some hrun) with hfar | ⟨hk, hone⟩
        · omega
        · simp only [CodeRun.holds, Bool.and_eq_true, decide_eq_true_eq] at hholds
          omega

theorem lowered_lowerAfter (before cs : List Char) : Lowered cs (lowerAfter before cs) := by
  induction cs generalizing before with
  | nil => exact .nil
  | cons c rest ih =>
      rw [lowerAfter]
      split
      · subst c
        split
        · exact .other [] (by decide) (by decide) (ih _)
        · exact .other [] (by decide) (by decide) (ih _)
      · by_cases hascii : c.toNat < 128
        · rw [lowerChar, if_pos hascii]
          exact .ascii (ih _)
        · obtain ⟨front, last, hlower, hlast⟩ := exists_lowerChar (Nat.le_of_not_lt hascii)
          rw [hlower, List.append_assoc]
          exact .other front (Nat.le_of_not_lt hascii) hlast (ih _)

theorem toLower_not_mem_endingChars {c : Char} (h : 128 ≤ c.toNat) :
    c.toLower ∉ endingChars := by
  have hsame : c.toLower = c := by
    have hcode : c.toNat = c.val.toNat := rfl
    refine dif_neg ?_
    rintro ⟨-, hle⟩
    rw [UInt32.le_iff_toNat_le] at hle
    have hz : 'Z'.val.toNat = 90 := rfl
    omega
  intro hmem
  rw [hsame] at hmem
  have hcode := toNat_of_mem_endingChars c hmem
  omega

/-- Of a text in the characters of endings the lowercase form is taken letter by letter. -/
theorem Lowered.eq_map {cs out : List Char} (h : Lowered cs out)
    (hchars : (∀ c ∈ out, c ∈ endingChars) ∨ ∀ c ∈ cs.map Char.toLower, c ∈ endingChars) :
    out = cs.map Char.toLower := by
  induction h with
  | nil => rfl
  | ascii _ ih =>
      rw [List.map_cons, ← ih]
      rcases hchars with hout | hcs
      · exact .inl fun c hc => hout c (List.mem_cons_of_mem _ hc)
      · exact .inr fun c hc => hcs c (List.mem_cons_of_mem _ hc)
  | other front hfar hlast _ _ =>
      rcases hchars with hout | hcs
      · exact absurd (hout _ (by simp)) hlast
      · exact absurd (hcs _ List.mem_cons_self) (toLower_not_mem_endingChars hfar)

/-- The lowercase form ends in an ending exactly if the text does, in some letter case. -/
theorem Lowered.isSuffix_iff {cs out ending : List Char} (h : Lowered cs out)
    (hending : ∀ c ∈ ending, c ∈ endingChars) :
    ending <:+ out ↔ ∃ front back, cs = front ++ back ∧ back.map Char.toLower = ending := by
  induction h with
  | nil =>
      constructor
      · intro hsuffix
        exact ⟨[], [], rfl, (List.suffix_nil.1 hsuffix).symm⟩
      · rintro ⟨front, back, hsplit, rfl⟩
        obtain ⟨-, rfl⟩ := List.append_eq_nil_iff.1 hsplit.symm
        exact List.suffix_refl _
  | @ascii c cs out hrest ih =>
      -- an ending is all that is left, or it stands further on
      rw [List.suffix_cons_iff, ih]
      constructor
      · rintro (rfl | ⟨front, back, rfl, hback⟩)
        · refine ⟨[], c :: cs, rfl, ?_⟩
          rw [List.map_cons,
            ← hrest.eq_map (.inl fun d hd => hending d (List.mem_cons_of_mem _ hd))]
        · exact ⟨c :: front, back, rfl, hback⟩
      · rintro ⟨front, back, hsplit, rfl⟩
        cases front with
        | nil =>
            obtain rfl : c :: cs = back := hsplit
            refine .inl ?_
            rw [List.map_cons,
              hrest.eq_map (.inr fun d hd => hending d (List.mem_cons_of_mem _ hd))]
        | cons first front =>
            obtain ⟨-, rfl⟩ := List.cons.inj hsplit
            exact .inr ⟨front, back, rfl, rfl⟩
  | @other front c last cs out hfar hlast hrest ih =>
      -- the last character of the piece is in no ending, so an ending stands behind the piece
      have hout : ending <:+ front ++ last :: out ↔ ending <:+ out := by
        have hwhole : front ++ last :: out = (front ++ [last]) ++ out := by simp
        refine ⟨fun hsuffix => ?_, fun hsuffix => hwhole ▸ hsuffix.trans (List.suffix_append _ _)⟩
        by_cases hlength : ending.length ≤ out.length
        · refine List.suffix_of_suffix_length_le hsuffix ?_ hlength
          exact hwhole ▸ List.suffix_append _ _
        · -- a longer ending would hold the last character of the piece
          have hlonger : last :: out <:+ ending := by
            refine List.suffix_of_suffix_length_le (List.suffix_append front _) hsuffix ?_
            rw [List.length_cons]
            omega
          exact absurd (hending last (hlonger.subset List.mem_cons_self)) hlast
      rw [hout, ih]
      constructor
      · rintro ⟨front, back, rfl, hback⟩
        exact ⟨c :: front, back, rfl, hback⟩
      · rintro ⟨front, back, hsplit, rfl⟩
        cases front with
        | nil =>
            obtain rfl : c :: cs = back := hsplit
            exact absurd (hending _ List.mem_cons_self) (toLower_not_mem_endingChars hfar)
        | cons first front =>
            obtain ⟨-, rfl⟩ := List.cons.inj hsplit
            exact ⟨front, back, rfl, rfl⟩

theorem mem_endingChars_of_mem_templateEndings :
    ∀ ending ∈ templateEndings, ∀ c ∈ ending.toList, c ∈ endingChars := by
  simp [templateEndings, endingChars]

/-- A path is a template path exactly when it ends, whatever its letter case, in one of the
template endings. -/
theorem isTemplatePath_iff (path : String) : isTemplatePath path = true ↔ IsTemplateName path := by
  have hending := fun ending hmem => (lowered_lowerAfter [] path.toList).isSuffix_iff
    (mem_endingChars_of_mem_templateEndings ending hmem)
  have hany : isTemplatePath path = true ↔
      ∃ ending ∈ templateEndings, ending.toList <:+ lower path.toList := by
    simp [isTemplatePath, templateEndings, List.isSuffixOf_iff_suffix]
  rw [hany]
  constructor
  · rintro ⟨ending, hmem, hsuffix⟩
    exact ⟨ending, hmem, (hending ending hmem).1 hsuffix⟩
  · rintro ⟨ending, hmem, hsplit⟩
    exact ⟨ending, hmem, (hending ending hmem).2 hsplit⟩

theorem intercalate_concat (separator last : List Char) (pieces : List (List Char)) :
    separator.intercalate (pieces ++ [last]) =
      (if pieces = [] then [] else separator.intercalate pieces ++ separator) ++ last := by
  induction pieces with
  | nil => simp
  | cons piece rest ih =>
      rw [if_neg (List.cons_ne_nil _ _), List.cons_append,
        List.intercalate_cons_of_ne_nil (List.append_ne_nil_of_right_ne_nil _ (by simp)), ih]
      cases rest with
      | nil => simp
      | cons next rest => simp [List.intercalate_cons_cons]

/-- The text of a path is its last name, behind nothing or behind a slash. -/
theorem Path.exists_toList_text {path : Path} {name : String}
    (hlast : path.names.getLast? = some name) :
    ∃ front, path.text.toList = front ++ name.toList ∧ (front = [] ∨ ['/'] <:+ front) := by
  obtain ⟨names, hnames⟩ := List.getLast?_eq_some_iff.1 hlast
  rw [Path.toList_text fun _ => hnames ▸ List.append_ne_nil_of_right_ne_nil _ (by simp), chars,
    hnames, List.map_append, List.map_singleton, intercalate_concat, ← List.append_assoc]
  refine ⟨_, rfl, ?_⟩
  split
  · rw [List.append_nil]
    cases path.root with
    | relative => exact .inl rfl
    | absolute => exact .inr (List.suffix_refl _)
    | doubled => exact .inr (List.suffix_append ['/'] ['/'])
  · rw [← List.append_assoc]
    exact .inr (List.suffix_append _ _)

/-- A path is that of a template if its last name ends so. -/
theorem isTemplatePath_text_iff {path : Path} {name : String}
    (hlast : path.names.getLast? = some name) :
    isTemplatePath path.text = true ↔ IsTemplateName name := by
  obtain ⟨front, htext, hfront⟩ := Path.exists_toList_text hlast
  rw [isTemplatePath_iff]
  constructor
  · rintro ⟨ending, hmem, before, back, hsplit, hback⟩
    have hending := mem_endingChars_of_mem_templateEndings ending hmem
    have hslash : '/' ∉ back := by
      intro hmemBack
      have hmap : '/' ∈ back.map Char.toLower := List.mem_map.2 ⟨'/', hmemBack, rfl⟩
      rw [hback] at hmap
      exact absurd (hending _ hmap) (by decide)
    -- an ending longer than the last name would hold the slash before it
    have hsuffix : back <:+ name.toList := by
      have hwhole : back <:+ front ++ name.toList := by
        rw [← htext, hsplit]
        exact List.suffix_append _ _
      rcases hfront with rfl | ⟨more, rfl⟩
      · exact hwhole
      · by_cases hlength : back.length ≤ name.toList.length
        · exact List.suffix_of_suffix_length_le hwhole (List.suffix_append _ _) hlength
        · have hlonger : '/' :: name.toList <:+ back := by
            refine List.suffix_of_suffix_length_le ⟨more, by simp⟩ hwhole ?_
            rw [List.length_cons]
            omega
          exact absurd (hlonger.subset List.mem_cons_self) hslash
    obtain ⟨start, hname⟩ := hsuffix
    exact ⟨ending, hmem, start, back, hname.symm, hback⟩
  · rintro ⟨ending, hmem, start, back, hname, hback⟩
    exact ⟨ending, hmem, front ++ start, back, by rw [htext, hname, List.append_assoc], hback⟩

end TemplateUsage.CommandLine
