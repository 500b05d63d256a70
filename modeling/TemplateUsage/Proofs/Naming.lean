import Mathlib.Data.Set.Function
import Mathlib.Data.Set.List
import TemplateUsage.CommandLine.Run
import TemplateUsage.Proofs.Origins
import TemplateUsage.Proofs.Snippet

set_option autoImplicit false

/-!
# Tag names and tokens

The name of a component is made of segments and these of words. A tag runs the words of a
segment together, each with a capital, and a token keeps them apart with hyphens
(`Component.tag`, `Component.token`). Both `ofTag` and `toTag` go through the words: the
capitals say where a word begins, and so do the hyphens. Every tag name in English letters
and digits whose segments begin with capitals is the tag of a component
(`tagNames_eq_range`). Main statement: `tagNames_and_tokens_inverse`.
-/

namespace TemplateUsage

namespace Text

/-! ## Joined texts and their pieces -/

theorem join_cons (separator first : List Char) (others : List (List Char)) :
    join separator (first :: others) = first ++ others.flatMap (separator ++ ·) := by
  induction others generalizing first with
  | nil => rw [join, List.flatMap_nil, List.append_nil]
  | cons next rest ih =>
      rw [join, ih, List.flatMap_cons, List.append_assoc, List.append_assoc]
      nofun

/-- Splitting undoes joining, if no piece holds the separator. -/
theorem splitAtChar_join {separator : Char} {first : List Char} {others : List (List Char)}
    (h : ∀ piece ∈ first :: others, separator ∉ piece) :
    splitAtChar separator (join [separator] (first :: others)) = first :: others := by
  rw [join_cons, splitAtChar_eq_splitOn]
  induction others generalizing first with
  | nil =>
      rw [List.flatMap_nil, List.append_nil, List.splitOn_eq_singleton (h _ List.mem_cons_self)]
  | cons next rest ih =>
      obtain ⟨hfirst, hothers⟩ := List.forall_mem_cons.1 h
      rw [List.flatMap_cons, List.singleton_append, List.cons_append,
        List.splitOn_append_cons_self, ih hothers, List.splitOn_eq_singleton hfirst,
        List.singleton_append]

theorem splitAtPair_cons_of_ne {separator c : Char} (h : c ≠ separator) (rest : List Char) :
    splitAtPair separator (c :: rest) = consPiece c (splitAtPair separator rest) := by
  cases rest with
  | nil => rfl
  | cons d rest => rw [splitAtPair, if_neg fun hpair => h hpair.1]

theorem splitAtPair_of_not_mem {separator : Char} {piece : List Char} (h : separator ∉ piece) :
    splitAtPair separator piece = [piece] := by
  induction piece with
  | nil => rfl
  | cons c rest ih =>
      have hc := List.ne_of_not_mem_cons h
      rw [splitAtPair_cons_of_ne hc.symm, ih (List.not_mem_of_not_mem_cons h), consPiece]

theorem splitAtPair_append {separator : Char} {piece : List Char} (h : separator ∉ piece)
    (rest : List Char) :
    splitAtPair separator (piece ++ separator :: separator :: rest) =
      piece :: splitAtPair separator rest := by
  induction piece with
  | nil => rw [List.nil_append, splitAtPair, if_pos ⟨rfl, rfl⟩]
  | cons c piece ih =>
      have hc := List.ne_of_not_mem_cons h
      rw [List.cons_append, splitAtPair_cons_of_ne hc.symm,
        ih (List.not_mem_of_not_mem_cons h), consPiece]

/-- The same of separators that are doubled. -/
theorem splitAtPair_join {separator : Char} {first : List Char} {others : List (List Char)}
    (h : ∀ piece ∈ first :: others, separator ∉ piece) :
    splitAtPair separator (join [separator, separator] (first :: others)) = first :: others := by
  rw [join_cons]
  induction others generalizing first with
  | nil =>
      rw [List.flatMap_nil, List.append_nil, splitAtPair_of_not_mem (h _ List.mem_cons_self)]
  | cons next rest ih =>
      obtain ⟨hfirst, hothers⟩ := List.forall_mem_cons.1 h
      rw [List.flatMap_cons, List.append_assoc, List.cons_append, List.singleton_append,
        splitAtPair_append hfirst, ih hothers]

/-! ## Letters and digits of ASCII -/

/-- What is checked for the first 128 characters holds of all ASCII characters. -/
theorem forall_ascii {p : Char → Prop} (h : ∀ n < 128, p (Char.ofNat n)) {c : Char}
    (hc : c.toNat < 128) : p c := by
  have hn := h c.toNat hc
  rwa [Char.ofNat_toNat] at hn

theorem toNat_lt_of_isAlphanum {c : Char} (h : c.isAlphanum = true) : c.toNat < 128 := by
  have hclass : ((c.isUpper || c.isLower) || c.isDigit) = true := h
  rw [Bool.or_eq_true, Bool.or_eq_true] at hclass
  -- each class ends at a character of ASCII
  have hlast : ∃ last : Char, last.toNat < 128 ∧ c.val ≤ last.val := by
    rcases hclass with (hupper | hlower) | hdigit
    · exact ⟨'Z', by decide, (of_decide_eq_true hupper).2⟩
    · exact ⟨'z', by decide, of_decide_eq_true (Bool.and_eq_true_iff.1 hlower).2⟩
    · exact ⟨'9', by decide, of_decide_eq_true (Bool.and_eq_true_iff.1 hdigit).2⟩
  obtain ⟨last, hcode, hle⟩ := hlast
  exact Nat.lt_of_le_of_lt (UInt32.le_iff_toNat_le.1 hle) hcode

/-- Lowercasing an ASCII text looks at each character alone. -/
theorem lower_of_ascii {cs : List Char} (h : ∀ c ∈ cs, c.toNat < 128) :
    lower cs = cs.map Char.toLower := by
  suffices hall : ∀ before, lowerAfter before cs = cs.map Char.toLower from hall []
  induction cs with
  | nil => exact fun _ => rfl
  | cons c rest ih =>
      intro before
      obtain ⟨hc, hrest⟩ := List.forall_mem_cons.1 h
      have hsigma : c ≠ 'Σ' := by
        rintro rfl
        exact absurd hc (by decide)
      rw [lowerAfter, if_neg hsigma, lowerChar, if_pos hc, ih hrest, List.map_cons,
        List.singleton_append]

end Text

namespace Name

open Text

/-! ## Words, segments and components -/

/-- Lowercase letters and digits. -/
def isWordChar (c : Char) : Bool := c.isLower || c.isDigit

/-- A word: lowercase letters and digits, a letter first. -/
structure Word where
  head : Char
  tail : List Char
  isLower_head : head.isLower = true
  isWordChar_tail : ∀ c ∈ tail, isWordChar c = true

/-- One word or more. -/
structure Segment where
  first : Word
  others : List Word

/-- One segment or more. -/
structure Component where
  first : Segment
  others : List Segment

/-- A word as it stands in a token. -/
def Word.chars (word : Word) : List Char := word.head :: word.tail

/-- A word as it stands in a tag. -/
def Word.capital (word : Word) : List Char := word.head.toUpper :: word.tail

/-- The words of a segment. -/
def Segment.words (segment : Segment) : List Word := segment.first :: segment.others

/-- The segments of a component. -/
def Component.segments (component : Component) : List Segment :=
  component.first :: component.others

/-- A segment as it stands in a token. -/
def Segment.hyphenated (segment : Segment) : List Char :=
  join ['-'] (segment.words.map Word.chars)

/-- A segment as it stands in a tag. -/
def Segment.camel (segment : Segment) : List Char := segment.words.flatMap Word.capital

/-- The token of a component. -/
def Component.token (component : Component) : String :=
  String.ofList (join ['/'] (component.segments.map Segment.hyphenated))

/-- The tag of a component. -/
def Component.tag (component : Component) : String :=
  String.ofList (join [':', ':'] (component.segments.map Segment.camel))

/-- Letters and digits, a capital first. -/
def IsTagSegment (cs : List Char) : Prop :=
  ∃ c rest, cs = c :: rest ∧ c.isUpper = true ∧ ∀ d ∈ rest, d.isAlphanum = true

/-- The tag names of English letters and digits, with `::` between segments that begin with
capitals. -/
def tagNames : Set String :=
  {tag | ∃ first others, (∀ cs ∈ first :: others, IsTagSegment cs) ∧
    tag = String.ofList (join [':', ':'] (first :: others))}

/-- The tokens with `/` between their segments and `-` between the words of these. -/
def tokens : Set String := Set.range Component.token

/-! ## Characters of a word -/

theorem isAlphanum_iff {c : Char} :
    c.isAlphanum = true ↔ c.isUpper = true ∨ isWordChar c = true := by
  show ((c.isUpper || c.isLower) || c.isDigit) = true ↔ _
  rw [isWordChar, Bool.or_assoc, Bool.or_eq_true]

/-- A capital says that a word begins. -/
theorem isWordChar_spec {c : Char} (h : isWordChar c = true) :
    c.isUpper = false ∧ c.toLower = c := by
  have hcode := toNat_lt_of_isAlphanum (isAlphanum_iff.2 (.inr h))
  exact forall_ascii (p := fun c => isWordChar c = true → c.isUpper = false ∧ c.toLower = c)
    (by decide) hcode h

theorem isWordChar_of_isLower {c : Char} (h : c.isLower = true) : isWordChar c = true := by
  rw [isWordChar, h, Bool.true_or]

theorem toUpper_spec {c : Char} (h : c.isLower = true) :
    c.toUpper.isUpper = true ∧ c.toUpper.toLower = c := by
  have hcode := toNat_lt_of_isAlphanum (isAlphanum_iff.2 (.inr (isWordChar_of_isLower h)))
  exact forall_ascii
    (p := fun c => c.isLower = true → c.toUpper.isUpper = true ∧ c.toUpper.toLower = c)
    (by decide) hcode h

theorem toLower_spec {c : Char} (h : c.isUpper = true) :
    c.toLower.isLower = true ∧ c.toLower.toUpper = c := by
  have hcode := toNat_lt_of_isAlphanum (isAlphanum_iff.2 (.inl h))
  exact forall_ascii
    (p := fun c => c.isUpper = true → c.toLower.isLower = true ∧ c.toLower.toUpper = c)
    (by decide) hcode h

/-- No separator is a letter or a digit. -/
theorem not_mem_of_isAlphanum {separator : Char} {cs : List Char}
    (h : ∀ c ∈ cs, c.isAlphanum = true) (hseparator : separator.isAlphanum = false) :
    separator ∉ cs := by
  intro hmem
  rw [h separator hmem] at hseparator
  cases hseparator

/-! ## From tag to token -/

namespace Word

theorem isAlphanum_chars (word : Word) : ∀ c ∈ word.chars, c.isAlphanum = true := by
  refine List.forall_mem_cons.2 ⟨?_, fun c hc => ?_⟩
  · exact isAlphanum_iff.2 (.inr (isWordChar_of_isLower word.isLower_head))
  · exact isAlphanum_iff.2 (.inr (word.isWordChar_tail c hc))

theorem isUpper_toUpper_head (word : Word) : word.head.toUpper.isUpper = true :=
  (toUpper_spec word.isLower_head).1

theorem isAlphanum_capital (word : Word) : ∀ c ∈ word.capital, c.isAlphanum = true := by
  refine List.forall_mem_cons.2 ⟨?_, fun c hc => ?_⟩
  · exact isAlphanum_iff.2 (.inl word.isUpper_toUpper_head)
  · exact isAlphanum_iff.2 (.inr (word.isWordChar_tail c hc))

/-- A word is its capitalised form in lower case. -/
theorem map_toLower_capital (word : Word) : word.capital.map Char.toLower = word.chars := by
  rw [capital, List.map_cons, (toUpper_spec word.isLower_head).2, chars]
  congr 1
  have hsame : ∀ c ∈ word.tail, c.toLower = id c :=
    fun c hc => (isWordChar_spec (word.isWordChar_tail c hc)).2
  rw [List.map_congr_left hsame, List.map_id]

/-- Nothing is put before the characters that follow the first of a word. -/
theorem flatMap_hyphenate_tail (word : Word) : word.tail.flatMap hyphenate = word.tail := by
  have hsame : ∀ c ∈ word.tail, hyphenate c = [c] := by
    intro c hc
    rw [hyphenate, (isWordChar_spec (word.isWordChar_tail c hc)).1]
    rfl
  rw [List.flatMap_congr hsame, List.flatMap_singleton']

/-- A hyphen is put before a word. -/
theorem flatMap_hyphenate_capital (word : Word) :
    word.capital.flatMap hyphenate = '-' :: word.capital := by
  rw [capital, List.flatMap_cons, flatMap_hyphenate_tail, hyphenate, word.isUpper_toUpper_head]
  rfl

theorem capitalize_chars (word : Word) : capitalize word.chars = word.capital := by
  have hcode : word.head.toNat < 128 :=
    toNat_lt_of_isAlphanum (word.isAlphanum_chars _ List.mem_cons_self)
  rw [chars, capitalize, upperChar, if_pos hcode]
  rfl

end Word

namespace Segment

theorem isAlphanum_camel (segment : Segment) : ∀ c ∈ segment.camel, c.isAlphanum = true := by
  intro c hc
  obtain ⟨word, -, hword⟩ := List.mem_flatMap.1 hc
  exact word.isAlphanum_capital c hword

/-- A segment in camel case is taken apart at its capitals. -/
theorem dasherizeChars_camel (segment : Segment) :
    dasherizeChars segment.camel = segment.hyphenated := by
  have hhyphens : segment.others.flatMap (fun word => word.capital.flatMap hyphenate) =
      segment.others.flatMap fun word => '-' :: word.capital :=
    List.flatMap_congr fun word _ => word.flatMap_hyphenate_capital
  have hascii : ∀ c ∈ segment.first.capital ++
      segment.others.flatMap (fun word => '-' :: word.capital), c.toNat < 128 := by
    refine List.forall_mem_append.2 ⟨fun c hc => ?_, fun c hc => ?_⟩
    · exact toNat_lt_of_isAlphanum (segment.first.isAlphanum_capital c hc)
    · obtain ⟨word, -, hword⟩ := List.mem_flatMap.1 hc
      rcases List.mem_cons.1 hword with rfl | hword
      · decide
      · exact toNat_lt_of_isAlphanum (word.isAlphanum_capital c hword)
  calc dasherizeChars segment.camel
      = lower (segment.first.capital ++
          segment.others.flatMap fun word => '-' :: word.capital) := by
        rw [camel, words, List.flatMap_cons, Word.capital, List.cons_append, dasherizeChars,
          List.flatMap_append, segment.first.flatMap_hyphenate_tail, List.flatMap_assoc, hhyphens]
        rfl
    _ = segment.first.chars ++ segment.others.flatMap fun word => '-' :: word.chars := by
        rw [lower_of_ascii hascii, List.map_append, Word.map_toLower_capital, List.map_flatMap]
        simp only [List.map_cons, Word.map_toLower_capital]
        rfl
    _ = segment.hyphenated := by
        rw [hyphenated, words, List.map_cons, join_cons, List.flatMap_map]
        rfl

/-- The words between hyphens are put together in camel case. -/
theorem camelize_hyphenated (segment : Segment) : camelize segment.hyphenated = segment.camel := by
  have hpieces : ∀ piece ∈ segment.words.map Word.chars, '-' ∉ piece := by
    rw [List.forall_mem_map]
    exact fun word _ => not_mem_of_isAlphanum word.isAlphanum_chars rfl
  have hsplit : splitAtChar '-' segment.hyphenated = segment.words.map Word.chars :=
    splitAtChar_join hpieces
  rw [camelize, hsplit, List.flatMap_map]
  exact List.flatMap_congr fun word _ => word.capitalize_chars

/-- In a token a segment is made of words and hyphens. -/
theorem slash_not_mem_hyphenated (segment : Segment) : '/' ∉ segment.hyphenated := by
  intro hmem
  rw [hyphenated, words, List.map_cons, join_cons, List.flatMap_map] at hmem
  rcases List.mem_append.1 hmem with hmem | hmem
  · exact not_mem_of_isAlphanum segment.first.isAlphanum_chars rfl hmem
  · obtain ⟨word, -, hword⟩ := List.mem_flatMap.1 hmem
    rcases List.mem_cons.1 hword with hword | hword
    · exact absurd hword (by decide)
    · exact not_mem_of_isAlphanum word.isAlphanum_chars rfl hword

theorem isTagSegment_camel (segment : Segment) : IsTagSegment segment.camel := by
  refine ⟨_, _, rfl, segment.first.isUpper_toUpper_head, fun c hc => ?_⟩
  exact segment.isAlphanum_camel c (List.mem_cons_of_mem _ hc)

end Segment

namespace Component

theorem ofTag_tag (component : Component) : ofTag component.tag = component.token := by
  have hpieces : ∀ piece ∈ component.segments.map Segment.camel, ':' ∉ piece := by
    rw [List.forall_mem_map]
    exact fun segment _ => not_mem_of_isAlphanum segment.isAlphanum_camel rfl
  have hsplit : splitAtPair ':' component.tag.toList = component.segments.map Segment.camel := by
    rw [tag, String.toList_ofList]
    exact splitAtPair_join hpieces
  have hsegments : (component.segments.map Segment.camel).map dasherizeChars =
      component.segments.map Segment.hyphenated := by
    rw [List.map_map]
    exact List.map_congr_left fun segment _ => segment.dasherizeChars_camel
  rw [ofTag, hsplit, hsegments, token]

theorem toTag_token (component : Component) : toTag component.token = component.tag := by
  have hpieces : ∀ piece ∈ component.segments.map Segment.hyphenated, '/' ∉ piece := by
    rw [List.forall_mem_map]
    exact fun segment _ => segment.slash_not_mem_hyphenated
  have hsplit : splitAtChar '/' component.token.toList =
      component.segments.map Segment.hyphenated := by
    rw [token, String.toList_ofList]
    exact splitAtChar_join hpieces
  have hsegments : (component.segments.map Segment.hyphenated).map camelize =
      component.segments.map Segment.camel := by
    rw [List.map_map]
    exact List.map_congr_left fun segment _ => segment.camelize_hyphenated
  rw [toTag, hsplit, hsegments, tag]

end Component

/-! ## Every tag name is that of a component -/

/-- Letters and digits are the rest of a word and capitalised words. -/
theorem exists_words {cs : List Char} (h : ∀ c ∈ cs, c.isAlphanum = true) :
    ∃ tail, (∀ c ∈ tail, isWordChar c = true) ∧
      ∃ words : List Word, cs = tail ++ words.flatMap Word.capital := by
  induction cs with
  | nil => exact ⟨[], nofun, [], rfl⟩
  | cons c rest ih =>
      obtain ⟨hc, hrest⟩ := List.forall_mem_cons.1 h
      obtain ⟨tail, htail, words, rfl⟩ := ih hrest
      by_cases hupper : c.isUpper = true
      · -- the word that begins here takes what has been read so far as its rest
        obtain ⟨hlower, hcapital⟩ := toLower_spec hupper
        refine ⟨[], nofun, ⟨c.toLower, tail, hlower, htail⟩ :: words, ?_⟩
        rw [List.flatMap_cons, Word.capital, hcapital]
        rfl
      · have hword := (isAlphanum_iff.1 hc).resolve_left hupper
        exact ⟨c :: tail, List.forall_mem_cons.2 ⟨hword, htail⟩, words, rfl⟩

/-- Each part of a tag name is a segment in camel case. -/
theorem IsTagSegment.exists_camel {cs : List Char} (h : IsTagSegment cs) :
    ∃ segment : Segment, segment.camel = cs := by
  obtain ⟨c, rest, rfl, hupper, hrest⟩ := h
  obtain ⟨tail, htail, words, rfl⟩ := exists_words hrest
  obtain ⟨hlower, hcapital⟩ := toLower_spec hupper
  refine ⟨⟨⟨c.toLower, tail, hlower, htail⟩, words⟩, ?_⟩
  rw [Segment.camel, Segment.words, List.flatMap_cons, Word.capital, hcapital]
  rfl

theorem tagNames_eq_range : tagNames = Set.range Component.tag := by
  ext tag
  constructor
  · rintro ⟨first, others, hsegments, rfl⟩
    obtain ⟨hfirst, hothers⟩ := List.forall_mem_cons.1 hsegments
    obtain ⟨segment, rfl⟩ := hfirst.exists_camel
    have hmem : others ∈ Set.range (List.map Segment.camel) := by
      rw [Set.range_list_map]
      exact fun cs hcs => (hothers cs hcs).exists_camel
    obtain ⟨segments, rfl⟩ := hmem
    exact ⟨⟨segment, segments⟩, rfl⟩
  · rintro ⟨component, rfl⟩
    refine ⟨component.first.camel, component.others.map Segment.camel, ?_, rfl⟩
    rw [← List.map_cons, List.forall_mem_map]
    exact fun segment _ => segment.isTagSegment_camel

theorem toTag_ofTag {tag : String} (h : tag ∈ tagNames) : toTag (ofTag tag) = tag := by
  rw [tagNames_eq_range] at h
  obtain ⟨component, rfl⟩ := h
  rw [component.ofTag_tag, component.toTag_token]

/-! ## Tags in a text -/

theorem exists_cons_of_mem_tagNames {tag : String} (h : tag ∈ tagNames) :
    ∃ c rest, tag.toList = c :: rest ∧ c.isUpper = true := by
  obtain ⟨first, others, hsegments, rfl⟩ := h
  obtain ⟨c, rest, rfl, hupper, -⟩ := hsegments first List.mem_cons_self
  rw [String.toList_ofList, join_cons, List.cons_append]
  exact ⟨c, _, rfl, hupper⟩

/-- A tag name begins with a capital, so it is that of a component unless it is bound. -/
theorem ofPath_of_mem_tagNames {tag : String} (h : tag ∈ tagNames) {scope : Scope}
    (hfree : scope.binds (headSegment tag .tagName) = false) :
    Classification.ofPath tag .tagName scope = .component (ofTag tag) := by
  obtain ⟨c, rest, htag, hupper⟩ := exists_cons_of_mem_tagNames h
  have hcode := toNat_lt_of_isAlphanum (isAlphanum_iff.2 (.inl hupper))
  have hhead : c ≠ '@' ∧ (isLowercase c || c == ':') = false := forall_ascii
    (p := fun c => c.isUpper = true → c ≠ '@' ∧ (isLowercase c || c == ':') = false)
    (by decide) hcode hupper
  have hwritten : (tag.isEmpty || tag.toList.head? == some '@') = false := by
    have hne : tag ≠ "" := by
      rintro rfl
      cases htag
    simp [htag, hne, hhead.1]
  have hplain : Classification.isPlainTag tag = false := by
    rw [Classification.isPlainTag, htag]
    exact hhead.2
  rw [Classification.ofPath, hwritten, hfree]
  simp [hplain]

/-- At the offset stand `<` and the tag name, as long as it can be. -/
def WrittenAt (tag source : String) (start : Nat) : Prop :=
  ∃ c rest, source.toList.drop start = '<' :: c :: rest ∧ Scan.startsTagName c = true ∧
    tag = String.ofList (c :: rest.takeWhile Scan.isTagNameChar)

/-- The usages of a text are those of candidates that are written in it. -/
theorem exists_candidate_of_mem_collectUsages {file source : String} {usages : List Usage}
    (h : collectUsages file source = .ok usages) {usage : Usage} (hmem : usage ∈ usages) :
    ∃ candidate : Candidate, candidate.WrittenIn file (Scan.ofText source).tokens ∧
      candidate.usage = usage := by
  unfold collectUsages at h
  split at h
  · cases h
    cases hmem
  · cases hparse : Template.parse file source with
    | error error =>
        rw [hparse] at h
        cases h
    | ok root =>
        rw [hparse] at h
        cases h
        obtain ⟨visible, hvisible, hcollect⟩ := root.exists_sublist_candidates Scope.empty
        replace hmem : usage ∈ root.collect Scope.empty := hmem
        rw [hcollect] at hmem
        obtain ⟨candidate, hcandidate, rfl⟩ := List.mem_map.1 hmem
        exact ⟨candidate, (Template.told_parse hparse).written candidate
          (hvisible.subset hcandidate), rfl⟩

/-- Tag names and tokens are converted into each other without loss, so that no two tag names
share a token, and a tag name that is not bound contributes its token. If tags are asked for,
a component is shown as its tag is written in the text, where the usage is located. -/
theorem tagNames_and_tokens_inverse :
    Set.MapsTo ofTag tagNames tokens ∧ Set.MapsTo toTag tokens tagNames ∧
    Set.InvOn toTag ofTag tagNames tokens ∧ Set.InjOn ofTag tagNames ∧
    (∀ tag ∈ tagNames, ∀ scope : Scope, scope.binds (headSegment tag .tagName) = false →
      Classification.ofPath tag .tagName scope = .component (ofTag tag)) ∧
    ∀ options : CommandLine.Options, options.angleBracket = true →
      ∀ file source usages, collectUsages file source = .ok usages →
      ∀ usage ∈ usages, usage.kind = .component → ∃ start stop tag,
        usage.location = some (locationAt file source.toList start stop) ∧
        WrittenAt tag source start ∧ usage.token = ofTag tag ∧
        (tag ∈ tagNames → CommandLine.shownToken options usage = tag) := by
  have hleft : Set.LeftInvOn toTag ofTag tagNames := fun tag htag => toTag_ofTag htag
  refine ⟨?_, ?_, ⟨hleft, ?_⟩, hleft.injOn, fun tag htag scope => ofPath_of_mem_tagNames htag, ?_⟩
  · rw [tagNames_eq_range]
    rintro _ ⟨component, rfl⟩
    exact ⟨component, component.ofTag_tag.symm⟩
  · rw [tagNames_eq_range]
    rintro _ ⟨component, rfl⟩
    exact ⟨component, component.toTag_token.symm⟩
  · rintro _ ⟨component, rfl⟩
    rw [component.toTag_token, component.ofTag_tag]
  · intro options hoptions file source usages husages usage hmem hkind
    obtain ⟨candidate, hwritten, rfl⟩ := exists_candidate_of_mem_collectUsages husages hmem
    obtain ⟨start, stop, hlocation, htag | hpath⟩ := hwritten.points
    · obtain ⟨-, -, c, rest, hdrop, hc, htoken, -⟩ := htag
      refine ⟨start, stop, _, hlocation, ⟨c, rest, hdrop, hc, rfl⟩, htoken, fun hname => ?_⟩
      rw [CommandLine.shownToken, hoptions, hkind, htoken]
      exact toTag_ofTag hname
    · rw [hpath.1] at hkind
      cases hkind

/-- A tag whose name has a run of capitals, digits, and words and segments of one letter. -/
def shoutedTag : String := "<XMLHttp2Request::A::B2C3/>"

theorem shouted_mem_tagNames : "XMLHttp2Request::A::B2C3" ∈ tagNames := by
  refine ⟨"XMLHttp2Request".toList, [['A'], "B2C3".toList], ?_, rfl⟩
  rw [List.forall_mem_cons, List.forall_mem_cons, List.forall_mem_singleton]
  exact ⟨⟨_, _, rfl, rfl, List.all_eq_true.1 rfl⟩, ⟨_, _, rfl, rfl, List.all_eq_true.1 rfl⟩,
    ⟨_, _, rfl, rfl, List.all_eq_true.1 rfl⟩⟩

/-- The words are told apart in the token, and the tag is shown as it is written. -/
theorem tagNames_and_tokens_inverse_shoutedTag :
    ∃ usage, collectUsages "page" shoutedTag = .ok [usage] ∧
      usage.token = "x-m-l-http2-request/a/b2-c3" ∧
      CommandLine.shownToken ⟨false, false, true, false⟩ usage = "XMLHttp2Request::A::B2C3" := by
  have hfacts : (collectUsages "page" shoutedTag).toOption.map (List.map fun usage : Usage =>
      (usage.token, usage.kind, usage.location.map Location.start)) =
      some [("x-m-l-http2-request/a/b2-c3", .component, some 0)] := by decide +kernel
  cases h : collectUsages "page" shoutedTag with
  | error error =>
      rw [h] at hfacts
      cases hfacts
  | ok usages =>
      rw [h] at hfacts
      obtain ⟨usage, rfl, husage⟩ := List.map_eq_singleton_iff.1 (Option.some.inj hfacts)
      obtain ⟨htoken, hrest⟩ := Prod.mk.inj husage
      obtain ⟨hkind, hstart⟩ := Prod.mk.inj hrest
      obtain ⟨-, -, -, -, -, hshown⟩ := tagNames_and_tokens_inverse
      obtain ⟨start, stop, tag, hlocation, ⟨c, rest, hdrop, -, rfl⟩, -, hname⟩ :=
        hshown ⟨false, false, true, false⟩ rfl _ _ _ h usage List.mem_cons_self hkind
      obtain rfl : start = 0 := by simpa [hlocation] using hstart
      obtain ⟨-, hdrop⟩ := List.cons.inj hdrop
      obtain ⟨rfl, rfl⟩ := List.cons.inj hdrop
      exact ⟨usage, rfl, htoken, hname shouted_mem_tagNames⟩

end Name

end TemplateUsage
