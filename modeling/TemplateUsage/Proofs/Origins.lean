import TemplateUsage.Extraction
import TemplateUsage.Proofs.Scan.Spelling
import TemplateUsage.Proofs.Tree.Candidates

set_option autoImplicit false

/-!
# Where usages come from

Every usage of a text points at what it names: its location begins with the tokens that
open it and name it, and nothing else of the text has a part in them. The usages are
listed in the order in which they start, but for those in the attributes and in the
modifiers of one tag. Main statements: `collectUsages_point_at_names` and
`collect_in_document_order`.
-/

namespace TemplateUsage

open Grammar Scan

/-! ## Tokens around a name -/

/-- The kinds of token that name nothing: text, which holds escaped expressions too,
comments, strings, closing tags and the closing of a block. -/
def Kind.silent : List Kind :=
  [.text, .htmlComment, .curlyComment, .string, .endTag, .openEndBlock]

/-- The characters between two offsets belong to no silent token, and to no path but one
that stands right behind a token of the kinds `openers`. -/
structure Unmixed (tokens : List Token) (openers : List Kind) (start stop : Nat) : Prop where
  silent : ∀ token ∈ tokens, token.kind ∈ Kind.silent → token.stop ≤ start ∨ stop ≤ token.start
  path : ∀ prior path : Token, [prior, path] <:+: tokens → path.kind = .path →
    prior.kind ∉ openers → path.stop ≤ start ∨ stop ≤ path.start

section Unmixed

variable {tokens own : List Token}

/-- A token outside a stretch of tokens does not reach into its place. -/
theorem Ascends.mem_or_apart (hascends : Ascends tokens) (hown : own <:+: tokens)
    {first last token : Token} (hfirst : own.head? = some first)
    (hlast : own.getLast? = some last) (hmem : token ∈ tokens) :
    token ∈ own ∨ token.stop ≤ first.start ∨ last.stop ≤ token.start := by
  obtain ⟨before, after, rfl⟩ := hown
  obtain ⟨hfront, -, hafter⟩ := List.pairwise_append.1 hascends
  obtain ⟨-, -, hbefore⟩ := List.pairwise_append.1 hfront
  rcases List.mem_append.1 hmem with hmem | hmem
  · rcases List.mem_append.1 hmem with hmem | hmem
    · exact .inr (.inl (hbefore token hmem first (List.mem_of_head? hfirst)).2.1)
    · exact .inl hmem
  · have hmemLast := List.mem_append_right before (List.mem_of_getLast? hlast)
    exact .inr (.inr (hafter last hmemLast token hmem).2.1)

theorem UsageSite.openers_spec (site : UsageSite) :
    ∀ kind ∈ site.openers, kind ∉ Kind.silent ∧ kind ≠ .path := by
  cases site <;> decide

/-- No other token has a part in the name of a tag. -/
theorem unmixed_tag {site : UsageSite} {tag : Token} (htag : tag.kind ∈ site.openers)
    (hown : [tag] <:+: tokens) (hascends : Ascends tokens) :
    Unmixed tokens site.openers tag.start tag.stop := by
  obtain ⟨hsilent, hpath⟩ := site.openers_spec tag.kind htag
  constructor
  · intro token hmem hkind
    refine (hascends.mem_or_apart hown rfl rfl hmem).resolve_left fun htoken => hsilent ?_
    rwa [List.mem_singleton.1 htoken] at hkind
  · intro prior path hpair hkind _
    have hmem := hpair.subset (List.mem_cons_of_mem _ List.mem_cons_self)
    refine (hascends.mem_or_apart hown rfl rfl hmem).resolve_left fun htoken => hpath ?_
    rwa [List.mem_singleton.1 htoken] at hkind

/-- No other token has a part in an opening token and the path right behind it. -/
theorem unmixed_call {text : List Char} {site : UsageSite} {opening name : Token}
    (hopening : opening.kind ∈ site.openers) (hname : name.kind = .path)
    (hown : [opening, name] <:+: tokens) (hlaid : Laid text [] 0 tokens) :
    Unmixed tokens site.openers opening.start name.stop := by
  have hascends := Ascends.of_laid hlaid
  obtain ⟨hsilent, hpath⟩ := site.openers_spec opening.kind hopening
  constructor
  · intro token hmem hkind
    refine (hascends.mem_or_apart hown rfl rfl hmem).resolve_left fun htoken => ?_
    rcases List.mem_cons.1 htoken with rfl | htoken
    · exact hsilent hkind
    · rw [List.mem_singleton.1 htoken, hname] at hkind
      exact absurd hkind (by decide)
  · intro prior path hpair hkind hprior
    have hmem := hpair.subset (List.mem_cons_of_mem _ List.mem_cons_self)
    refine (hascends.mem_or_apart hown rfl rfl hmem).resolve_left fun htoken => ?_
    rcases List.mem_cons.1 htoken with rfl | htoken
    · exact hpath hkind
    · -- the name is found at one place only, and the opening token stands before it
      obtain rfl := List.mem_singleton.1 htoken
      obtain ⟨before, after, rfl⟩ := hown
      obtain ⟨front, back, hsplit⟩ := hpair
      have hwhole : (before ++ [opening]) ++ path :: after =
          (front ++ [prior]) ++ path :: back := by simpa using hsplit.symm
      have hplaces : Laid text [] 0 ((before ++ [opening]) ++ path :: after) := by
        simpa using hlaid
      obtain ⟨-, hsame⟩ := List.append_inj' (hplaces.front_unique hwhole rfl) rfl
      rw [← (List.cons.inj hsame).1] at hprior
      exact hprior hopening

end Unmixed

/-! ## Names in a text -/

namespace Usage

/-- At the offset stand `<` and a tag name, as long as it can be, of which the token is
made. -/
def AtTag (source : String) (usage : Usage) (start : Nat) : Prop :=
  ∃ c rest, source.toList.drop start = '<' :: c :: rest ∧ startsTagName c = true ∧
    usage.token = Name.ofTag (String.ofList (c :: rest.takeWhile isTagNameChar)) ∧
    Unmixed (ofText source).tokens usage.site.openers start
      (start + (rest.takeWhile isTagNameChar).length + 2)

/-- From one offset to the other stand an opening delimiter, blanks, and the token, then a
character that is none of a path, and anything else. -/
def AtPath (source : String) (usage : Usage) (start stop : Nat) : Prop :=
  ∃ kind ∈ usage.site.openers, ∃ opening blanks next rest,
    Opens kind opening ∧ Blanks blanks ∧
    usage.token ≠ "" ∧ (∀ c ∈ usage.token.toList, isPathChar c = true) ∧
    isPathChar next = false ∧
    slice source.toList start stop =
      opening ++ blanks ++ usage.token.toList ++ next :: rest ∧
    Unmixed (ofText source).tokens usage.site.openers start
      (start + (opening ++ blanks ++ usage.token.toList).length)

end Usage

section Pointing

variable {file source : String} {own : List Token}

/-- Tokens of a text are located from the first to the last of them. -/
theorem tokensLocation?_of_isInfix (hown : own <:+: (ofText source).tokens) {first last : Token}
    (hfirst : own.head? = some first) (hlast : own.getLast? = some last) :
    tokensLocation? file own = some (locationAt file source.toList first.start last.stop) := by
  have hlocated := (laid_ofText source).located
  have hopening := hlocated first (hown.subset (List.mem_of_head? hfirst))
  have hclosing := hlocated last (hown.subset (List.mem_of_getLast? hlast))
  rw [tokensLocation?, tokensSpan?, Phrase.listSpan?, hfirst, hlast, Option.map_some,
    hopening.span_eq, hclosing.span_eq]
  rfl

theorem start_add_length_slice {text : List Char} {start stop : Nat} (hle : start ≤ stop)
    (hstop : stop ≤ text.length) : start + (slice text start stop).length = stop := by
  rw [Phrase.length_slice hstop]
  omega

theorem exists_cons_slice {text : List Char} {start stop : Nat} (hlt : start < stop)
    (hstop : stop ≤ text.length) :
    ∃ c rest, slice text start stop = c :: rest ∧ (text.drop start).head? = some c := by
  obtain ⟨c, rest, hdrop⟩ := List.exists_cons_of_ne_nil
    (mt List.drop_eq_nil_iff.1 (Nat.not_le.2 (hlt.trans_le hstop)))
  obtain ⟨width, hwidth⟩ := Nat.exists_eq_add_of_lt hlt
  have hlength : stop - start = width + 1 := by omega
  refine ⟨c, rest.take width, ?_, ?_⟩
  · rw [slice, hdrop, hlength, List.take_succ_cons]
  · rw [hdrop, List.head?_cons]

/-- A tag is written with its whole name. -/
theorem atTag_of_isInfix {usage : Usage} {name : Lexeme}
    (hown : [⟨.startTag, name⟩] <:+: (ofText source).tokens)
    (hsite : usage.site = .element) (htoken : usage.token = Name.ofTag name.value) :
    usage.AtTag source (Token.mk .startTag name).start := by
  have hlaid := laid_ofText source
  have hmem := hown.subset List.mem_cons_self
  have hplaced := (hlaid.located _ hmem).placed
  obtain ⟨c, rest, hdrop, hc, hvalue⟩ := shown_ofText source _ hmem
  have hwritten : slice source.toList _ _ = '<' :: name.value.toList := hplaced.written
  replace hvalue : name.value.toList = c :: rest.takeWhile isTagNameChar := hvalue
  have hstop := start_add_length_slice hplaced.start_lt.le hplaced.stop_le
  rw [hwritten, hvalue, List.length_cons, List.length_cons] at hstop
  refine ⟨c, rest, hdrop, hc, ?_, ?_⟩
  · rw [htoken, ← hvalue, String.ofList_toList]
  · rw [hsite, Nat.add_assoc, hstop]
    exact unmixed_tag List.mem_cons_self hown (Ascends.of_laid hlaid)

/-- The token that opens a call is spelled as its kind is. -/
theorem opens_of_mem {site : UsageSite} {kind : Kind} {opening : Lexeme}
    (hmem : ⟨kind, opening⟩ ∈ (ofText source).tokens) (hsite : site ≠ .element)
    (hkind : kind ∈ site.openers) : Opens kind opening.value.toList := by
  have hshown := shown_ofText source _ hmem
  cases site with
  | element => exact absurd rfl hsite
  | subExpression | modifier =>
      obtain rfl := List.mem_singleton.1 hkind
      exact hshown
  | mustache | block =>
      rcases List.mem_cons.1 hkind with rfl | hkind
      · exact hshown
      · obtain rfl := List.mem_singleton.1 hkind
        exact hshown

/-- A call is written with its opening delimiter and its whole path. -/
theorem atPath_of_isInfix {usage : Usage} {kind : Kind} {opening name : Lexeme}
    {last next : Token} {rest : List Token}
    (hown : ⟨kind, opening⟩ :: ⟨.path, name⟩ :: next :: rest <:+: (ofText source).tokens)
    (hlast : (next :: rest).getLast? = some last) (hsite : usage.site ≠ .element)
    (hkind : kind ∈ usage.site.openers) (htoken : usage.token = name.value) :
    usage.AtPath source (Token.mk kind opening).start last.stop := by
  have hlaid := laid_ofText source
  have hopening := hown.subset List.mem_cons_self
  have hname := hown.subset (List.mem_cons_of_mem _ List.mem_cons_self)
  have hend := hown.subset
    (List.mem_cons_of_mem _ (List.mem_cons_of_mem _ (List.mem_of_getLast? hlast)))
  have hopens := opens_of_mem hopening hsite hkind
  have hopeningPlaced := (hlaid.located _ hopening).placed
  have hnamePlaced := (hlaid.located _ hname).placed
  have hendPlaced := (hlaid.located _ hend).placed
  obtain ⟨hne, hchars⟩ := (coherent_ofText source).fit _ hname
  have hchain := List.IsChain.infix (isChain_blanks_ofText source) hown
  obtain ⟨⟨hgap, hblanks⟩, -⟩ := List.isChain_cons_cons.1 hchain
  have hascends : Ascends (⟨.path, name⟩ :: next :: rest) :=
    ((Ascends.of_laid hlaid).sublist hown.sublist).tail
  have hlater := (List.pairwise_cons.1 hascends).1 last (List.mem_of_getLast? hlast)
  -- the text of the call up to its name, in three pieces
  have hfront : slice source.toList (Token.mk kind opening).start (Token.mk .path name).stop =
      opening.value.toList ++
        slice source.toList (Token.mk kind opening).stop (Token.mk .path name).start ++
        usage.token.toList := by
    rw [← slice_append (hopeningPlaced.start_lt.le.trans hgap) hnamePlaced.start_lt.le,
      ← slice_append hopeningPlaced.start_lt.le hgap, hopens.written hopeningPlaced.written,
      htoken]
    congr 1
    exact hnamePlaced.written
  obtain ⟨c, more, hmore, hc⟩ := exists_cons_slice (hlater.2.1.trans_lt hlater.2.2)
    hendPlaced.stop_le
  have hstart := hopeningPlaced.start_lt.le.trans (hgap.trans hnamePlaced.start_lt.le)
  refine ⟨kind, hkind, _, _, c, more, hopens, hblanks, ?_, ?_, ?_, ?_, ?_⟩
  · rwa [htoken]
  · rwa [htoken]
  · have hshown := shown_ofText source _ hname
    refine hshown c ?_
    rw [List.drop_drop, Nat.add_sub_cancel' hnamePlaced.start_lt.le]
    exact hc
  · rw [← hfront, ← hmore, slice_append hstart (hlater.2.1.trans hlater.2.2.le)]
  · rw [← hfront, start_add_length_slice hstart hnamePlaced.stop_le]
    have hpair : [⟨kind, opening⟩, ⟨.path, name⟩] <:+: (ofText source).tokens :=
      (List.prefix_append [_, _] (next :: rest)).isInfix.trans hown
    exact unmixed_call hkind rfl hpair hlaid

/-- The usage of a candidate that is written in a text points at what it names. -/
theorem Candidate.WrittenIn.points {candidate : Candidate}
    (h : candidate.WrittenIn file (ofText source).tokens) :
    ∃ start stop, candidate.usage.location = some (locationAt file source.toList start stop) ∧
      (candidate.usage.kind = .component ∧ candidate.usage.site = .element ∧
          candidate.usage.AtTag source start ∨
        candidate.usage.kind = .invocable ∧ candidate.usage.AtPath source start stop) := by
  obtain ⟨own, hown, hbegins, hlocation⟩ := h
  have hlast := List.getLast?_eq_some_getLast hbegins.ne_nil
  generalize own.getLast _ = last at hlast
  cases hbegins with
  | @tag name location rest =>
      refine ⟨_, last.stop, hlocation.trans (tokensLocation?_of_isInfix hown rfl hlast),
        .inl ⟨rfl, rfl, ?_⟩⟩
      have htag : [⟨.startTag, name⟩] <:+: (ofText source).tokens :=
        (List.prefix_append [_] rest).isInfix.trans hown
      exact atTag_of_isInfix htag rfl rfl
  | @call kind opening name next form location rest hform hkind =>
      refine ⟨_, last.stop, hlocation.trans (tokensLocation?_of_isInfix hown rfl hlast),
        .inr ⟨rfl, ?_⟩⟩
      have hclosing : (next :: rest).getLast? = some last := by
        rwa [List.getLast?_cons_cons, List.getLast?_cons_cons] at hlast
      exact atPath_of_isInfix hown hclosing hform hkind rfl

end Pointing

/-! ## The usages of a text -/

/-- The usages of a tree are those of some of its candidates, in their order. -/
theorem Node.exists_sublist_candidates (node : Node) (scope : Scope) :
    ∃ visible : List Candidate, visible.Sublist node.candidates ∧
      node.collect scope = visible.map Candidate.usage := by
  refine ⟨(node.sites.filter (·.Visible scope)).map Site.candidate,
    List.filter_sublist.map Site.candidate, ?_⟩
  rw [node.collect_eq_map_filter_sites, List.map_map]
  rfl

/-- Every usage of a text points at what it names. That of a component is located at a `<`
that opens a tag, and its token is made of the whole name of this tag. That of an
invocable is located at an opening delimiter of its site, which is followed by its token,
and the token goes as far as a path can. Neither has anything to do with text, escaped
expressions, comments, strings, closing tags, closings of blocks or paths that are
arguments. -/
theorem collectUsages_point_at_names {file source : String} {usages : List Usage}
    (h : collectUsages file source = .ok usages) :
    ∀ usage ∈ usages, ∃ start stop,
      usage.location = some (locationAt file source.toList start stop) ∧
      (usage.kind = .component ∧ usage.site = .element ∧ usage.AtTag source start ∨
        usage.kind = .invocable ∧ usage.AtPath source start stop) := by
  unfold collectUsages at h
  split at h
  · cases h
    nofun
  · cases hparse : Template.parse file source with
    | error error =>
        rw [hparse] at h
        cases h
    | ok root =>
        rw [hparse] at h
        cases h
        obtain ⟨visible, hvisible, hcollect⟩ := root.exists_sublist_candidates Scope.empty
        have htold := Template.told_parse hparse
        show ∀ usage ∈ root.collect Scope.empty, _
        rw [hcollect, List.forall_mem_map]
        intro candidate hmem
        exact (htold.written candidate (hvisible.subset hmem)).points

/-- A tag with a modifier and an attribute, around a block with an else. -/
def mixedTag : String :=
  "<My::List \x7b\x7bon (fn 'x') go\x7d\x7d b=\"\x7b\x7b~f y\x7d\x7d\">" ++
    "\x7b\x7b#if a\x7d\x7d\\\x7b\x7bno\x7d\x7d\x7b\x7belse unless c\x7d\x7d" ++
    "\x7b\x7b\x7b d\x7d\x7d\x7d\x7b\x7b/if\x7d\x7d</My::List>"

/-- The names are read off the right places of the text. -/
theorem collectUsages_point_at_names_mixedTag :
    ∃ usages, collectUsages "page" mixedTag = .ok usages ∧
      usages.map Usage.token = ["my/list", "f", "on", "fn", "if", "unless", "d"] ∧
      ∀ usage ∈ usages, ∃ start stop,
        usage.location = some (locationAt "page" mixedTag.toList start stop) ∧
        (usage.kind = .component ∧ usage.site = .element ∧ usage.AtTag mixedTag start ∨
          usage.kind = .invocable ∧ usage.AtPath mixedTag start stop) := by
  have htokens : (collectUsages "page" mixedTag).toOption.map (List.map Usage.token) =
      some ["my/list", "f", "on", "fn", "if", "unless", "d"] := by decide +kernel
  cases h : collectUsages "page" mixedTag with
  | error error =>
      rw [h] at htokens
      cases htokens
  | ok usages =>
      rw [h] at htokens
      exact ⟨usages, rfl, Option.some.inj htokens, collectUsages_point_at_names h⟩

/-- Document order. Of two usages of a text, the one that is listed first starts first,
unless it is in an attribute and the other in a modifier of the same tag: attributes are
listed before modifiers. No two usages start at one place. -/
theorem collect_in_document_order {file source : String} {root : Node}
    (h : Template.parse file source = .ok root) (scope : Scope) :
    (root.collect scope).Pairwise fun first second =>
      ∃ here ∈ first.location, ∃ there ∈ second.location, here.start ≠ there.start ∧
        (here.start < there.start ∨ root.SharesTag here there) := by
  obtain ⟨visible, hvisible, hcollect⟩ := root.exists_sublist_candidates scope
  have hlocation (candidate : Candidate) : candidate.usage.location = candidate.location := by
    unfold Candidate.usage
    split <;> rfl
  rw [hcollect, List.pairwise_map]
  simp only [hlocation]
  exact (Template.told_parse h).ordered.sublist hvisible

/-- The modifier of the tag is written before its attribute and listed after it. -/
theorem collect_in_document_order_mixedTag :
    ∃ root, Template.parse "page" mixedTag = .ok root ∧
      (root.collect Scope.empty).map (fun usage => usage.location.map Location.start) =
        [some 0, some 32, some 10, some 15, some 42, some 58, some 75] ∧
      (root.collect Scope.empty).Pairwise fun first second =>
        ∃ here ∈ first.location, ∃ there ∈ second.location, here.start ≠ there.start ∧
          (here.start < there.start ∨ root.SharesTag here there) := by
  have hstarts : (Template.parse "page" mixedTag).toOption.map (fun root =>
      (root.collect Scope.empty).map fun usage => usage.location.map Location.start) =
      some [some 0, some 32, some 10, some 15, some 42, some 58, some 75] := by decide +kernel
  cases h : Template.parse "page" mixedTag with
  | error error =>
      rw [h] at hstarts
      cases hstarts
  | ok root =>
      rw [h] at hstarts
      exact ⟨root, rfl, Option.some.inj hstarts, collect_in_document_order h Scope.empty⟩

end TemplateUsage
