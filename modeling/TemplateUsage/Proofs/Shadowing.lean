import TemplateUsage.Proofs.Scoping

set_option autoImplicit false

/-!
# Shadowing

Of a scope only the names it binds count, neither the number nor the order of its frames.
A scope that binds more names hides more sites of a tree and changes nothing else: the usages
in it are those in the narrower scope without the sites whose head it binds
(`collect_eq_of_names_subset`). Main statement: `collect_antitone`.
-/

namespace TemplateUsage

theorem Scope.mem_names_iff {scope : Scope} {name : String} :
    name ∈ scope.names ↔ scope.binds name = true := by
  rw [names, Text.mem_sortedDistinct, List.mem_flatten, binds_iff]

theorem Scope.binds_eq_false_iff {scope : Scope} {name : String} :
    scope.binds name = false ↔ name ∉ scope.names := by
  rw [mem_names_iff, Bool.not_eq_true]

section

variable {narrow wide : Scope} (h : narrow.names ⊆ wide.names)
include h

/-- Whatever is declared around a site, a wider scope hides it only by its head. -/
theorem Site.visible_iff_of_names_subset (site : Site) :
    site.Visible wide ↔ site.Visible narrow ∧ site.candidate.head ∉ wide.names := by
  rw [Visible, Visible, Scope.binds_eq_false_iff, Scope.binds_eq_false_iff]
  constructor
  · rintro ⟨hnames, hfree, hdeclared⟩
    exact ⟨⟨hnames, fun hmem => hfree (h hmem), hdeclared⟩, hfree⟩
  · rintro ⟨⟨hnames, -, hdeclared⟩, hfree⟩
    exact ⟨hnames, hfree, hdeclared⟩

namespace Node

/-- In a wider scope those visible sites remain whose head it does not bind. -/
theorem collect_eq_of_names_subset (node : Node) :
    node.collect wide =
      ((node.sites.filter (·.Visible narrow)).filter fun site =>
        site.candidate.head ∉ wide.names).map Site.usage := by
  rw [collect_eq_map_filter_sites, List.filter_filter]
  refine congrArg (List.map Site.usage) (List.filter_congr fun site _ => ?_)
  rw [← Bool.decide_and, decide_eq_decide, Site.visible_iff_of_names_subset h, and_comm]

theorem collect_sublist_of_names_subset (node : Node) :
    (node.collect wide).Sublist (node.collect narrow) := by
  rw [collect_eq_of_names_subset h, collect_eq_map_filter_sites]
  exact List.filter_sublist.map Site.usage

end Node

end

namespace Node

/-- Shadowing is anti-monotone. In a scope that binds at least the same names, the usages of a
tree are some of those in the other scope, in the same order: the ones of the visible sites
whose head the wider scope leaves free. So scopes that bind the same names, in whatever
frames, give the same usages. -/
theorem collect_antitone (node : Node) :
    (∀ narrow wide : Scope, narrow.names ⊆ wide.names →
      (node.collect wide).Sublist (node.collect narrow) ∧
      node.collect wide =
        ((node.sites.filter (·.Visible narrow)).filter fun site =>
          site.candidate.head ∉ wide.names).map Site.usage) ∧
    ∀ first second : Scope, (∀ name, name ∈ first.names ↔ name ∈ second.names) →
      node.collect first = node.collect second := by
  refine ⟨fun narrow wide h => ?_, fun first second h => ?_⟩
  · exact ⟨collect_sublist_of_names_subset h node, collect_eq_of_names_subset h node⟩
  · have hfirst := collect_sublist_of_names_subset (fun name => (h name).1) node
    have hsecond := collect_sublist_of_names_subset (fun name => (h name).2) node
    exact hsecond.antisymm hfirst

/-- A mustache that calls a path. -/
def caller (path : String) : Node :=
  .invocation none (.mustache false) (.path none path) [] (.hash none [])

/-- A list in an element, each with names of its own. -/
def declaredList : Node :=
  .element none "Panel" [] [caller "item"] ["panel"]
    [.block none (.path none "each") [] (.hash none [])
      (.body none ["item"] [caller "item.name", caller "row", caller "panel", caller "title"] false)
      (some (.body none [] [caller "item", caller "row"] false))] false

/-- Binding one more name hides its calls, at every depth; the same names in another order and
in other frames hide the same. -/
theorem collect_antitone_declaredList :
    (declaredList.collect ((Scope.empty.push ["title"]).push ["row"])).Sublist
      (declaredList.collect (Scope.empty.push ["title"])) ∧
    (declaredList.collect (Scope.empty.push ["title"])).map Usage.token =
      ["panel", "item", "each", "row", "item", "row"] ∧
    (declaredList.collect ((Scope.empty.push ["title"]).push ["row"])).map Usage.token =
      ["panel", "item", "each", "item"] ∧
    declaredList.collect ((Scope.empty.push ["title"]).push ["row"]) =
      declaredList.collect (Scope.empty.push ["row", "title", "row"]) := by
  obtain ⟨hwider, hsame⟩ := collect_antitone declaredList
  refine ⟨(hwider _ _ (by decide +kernel)).1, by decide +kernel, by decide +kernel, ?_⟩
  have hnames : ((Scope.empty.push ["title"]).push ["row"]).names =
      (Scope.empty.push ["row", "title", "row"]).names := by decide +kernel
  exact hsame _ _ fun name => by rw [hnames]

end Node

end TemplateUsage
