import TemplateUsage.Recogniser.Action

set_option autoImplicit false

/-!
# Recognising a template

On each token the recogniser first completes every phrase that can be completed
before it, then takes the token in. Completing phrases comes to an end because
each completion lowers the rank of the configuration. Main definitions:
`Config.settle`, `Config.read`, `Config.finish`.
-/

namespace TemplateUsage.Recogniser

open Phrase

/-! ## Rank -/

/-- Completions an enclosure may need before the end of its block. -/
def Enclosure.rank : Enclosure → Nat
  | .element _ _ => 0
  | .branch before _ => before.length + 2
  | .otherwise _ before _ _ => before.length + 2

/-- Completions a position may need before the next token. -/
def Position.rank : Position → Nat
  | .content ⟨_, level :: _⟩ => level.enclosure.rank
  | .attribute _ _ => 1
  | .call _ _ => 1
  | .sectionEnd chain => chain.before.length + 1
  | .inverse chain _ => chain.before.length
  | _ => 0

/-- Completions a configuration may need before the next token. -/
def Config.rank (config : Config) : Nat :=
  config.position.rank + config.checks.length

theorem reduceContent?_rank {content : Content} {kind : Kind} {next : Position}
    (h : reduceContent? content kind = some next) :
    next.rank < (Position.content content).rank := by
  obtain ⟨statements, levels⟩ := content
  unfold reduceContent? at h
  split at h
  · rename_i before head outer rest hlevels
    dsimp only at hlevels
    subst hlevels
    split at h
    · cases h
      simp [Position.rank, Enclosure.rank]
    · cases h
  · rename_i latest before opening closing outer rest hlevels
    dsimp only at hlevels
    subst hlevels
    split at h
    · cases h
      simp [Position.rank, Enclosure.rank]
    · cases h
  · cases h

theorem reduceChain?_rank {chain : Chain} {inverse : Inverse} {kind : Kind} {next : Position}
    (h : reduceChain? chain inverse kind = some next) :
    next.rank < chain.before.length := by
  unfold reduceChain? at h
  split at h
  · rename_i previous before hbefore
    cases h
    simp [Position.rank, hbefore]
  · cases h

theorem Position.reduce?_rank {position next : Position} {kind : Kind}
    (h : position.reduce? kind = some next) : next.rank < position.rank := by
  unfold Position.reduce? at h
  split at h
  · exact reduceContent?_rank h
  · split at h
    · cases h
      exact Nat.zero_lt_one
    · cases h
  · split at h
    · obtain ⟨complete, _, rfl⟩ := Option.map_eq_some_iff.1 h
      exact Nat.zero_lt_one
    · cases h
  · exact Nat.lt_succ_of_lt (reduceChain?_rank h)
  · exact reduceChain?_rank h
  · cases h

/-- Each completion lowers the rank. -/
theorem Config.reduce?_rank {config next : Config} {look : Lookahead}
    (h : config.reduce? look = some next) : next.rank < config.rank := by
  obtain ⟨position, checks⟩ := config
  unfold Config.reduce? at h
  cases checks with
  | cons follow checks =>
      dsimp only at h
      split at h
      · cases h
        simp [Config.rank]
      · cases h
  | nil =>
      cases look with
      | finish => cases h
      | token kind =>
          obtain ⟨reduced, hreduced, rfl⟩ := Option.map_eq_some_iff.1 h
          have := Position.reduce?_rank hreduced
          simpa [Config.rank, Position.settled] using this

/-! ## Runs -/

/-- The configuration after every completion before what comes next. -/
def Config.settle (config : Config) (look : Lookahead) : Config :=
  match _h : config.reduce? look with
  | some next => next.settle look
  | none => config
termination_by config.rank
decreasing_by exact Config.reduce?_rank _h

/-- Takes a token in, or gives what was expected in its place. -/
def Config.read (config : Config) (token : Token) : Except (List Lookahead) Config :=
  let settled := config.settle (.token token.kind)
  match settled.shift? token.kind with
  | some next => .ok (next token.lexeme)
  | none => .error settled.expected

/-- The template at the end of the text, or what was expected to go on. -/
def Config.finish (config : Config) : Except (List Lookahead) (List Statement) :=
  let settled := config.settle .finish
  match settled.accept? with
  | some statements => .ok statements
  | none => .error settled.expected

/-- A token that cannot stand where it stands, and what could. -/
structure Refusal where
  token : Token
  expected : List Lookahead

/-- Takes tokens in, up to the first that cannot stand where it stands. -/
def Config.readAll (config : Config) : List Token → Except Refusal Config
  | [] => .ok config
  | token :: rest =>
      match config.read token with
      | .ok next => next.readAll rest
      | .error expected => .error ⟨token, expected⟩

end TemplateUsage.Recogniser
