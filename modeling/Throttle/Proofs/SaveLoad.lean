import Throttle.Config.Printer
import Throttle.Config.Reader
import Throttle.Proofs.BlockTrees
import Throttle.Proofs.CoreSchema
import Throttle.Proofs.Phrases

/-!
# Configurations survive saving and loading

A configuration is written as a tree in block style, so the text is read back as the nodes of that
tree; and from these nodes every part is read as it was.
-/

namespace Throttle.Config

open Yaml (Document Node)
open Yaml.Block (Words Value Fields Items spaces)

variable {d : Document} {c : Config} {column : Nat}

/-! ## Scalars -/

def numberWords (n : UInt64) : Words where
  text := .ofList (number n)
  isWords := ⟨_, by rw [String.toList_ofList]; exact (Text.isWord_toDigits n.toNat).isWords⟩

def spanWords (d : Duration) : Words := ⟨d.toPhrase, d.isWords_toPhrase⟩

def modeWords (mode : RuleMode) : Words where
  text := modeName mode
  isWords := ⟨[(modeName mode).toList], Text.IsWord.isWords (by cases mode <;> decide)⟩

def limitModeWords (mode : LimiterMode) : Words where
  text := limitModeName mode
  isWords := ⟨[(limitModeName mode).toList], Text.IsWord.isWords (by cases mode <;> decide)⟩

theorem number?_numberWords (n : UInt64) :
    d.number? (.scalar (numberWords n).text .plain none) = some n := by
  have hword : Yaml.word? (numberWords n).text = some n.toNat := Yaml.word?_toDigits n.toNat_lt
  simp [Document.number?, Document.target, hword]

theorem optional?_numberWords (n : UInt64) :
    d.optional? d.number? (.scalar (numberWords n).text .plain none) = some (some n) := by
  have hnull := Yaml.not_null_toDigits n.toNat
  have htext : (numberWords n).text = .ofList (Nat.toDigits 10 n.toNat) := rfl
  simp only [Document.optional?, Document.target, number?_numberWords]
  rw [htext]
  simp [hnull]

theorem span?_spanWords (span : Duration) :
    span? d (.scalar (spanWords span).text .plain none) = some span := by
  simp [span?, Document.text?, Document.target, parseSpan, spanWords, Duration.ofPhrase_toPhrase]
  rfl

/-! ## The tree of a configuration -/

def Window.fields (w : Window) : Fields :=
  .cons { name := "window" } (.words (spanWords w.span)) <|
    match w.estimated with
    | none => .last { name := "allowance" } (.words (numberWords w.allowance))
    | some n =>
        .cons { name := "allowance" } (.words (numberWords w.allowance)) <|
          .last { name := "estimated" } (.words (numberWords n))

def Window.items : Window → List Window → Items
  | w, [] => .last w.fields
  | w, w' :: ws => .cons w.fields (items w' ws)

def Rule.fields (mode : RuleMode) (w : Window) (ws : List Window) : Fields :=
  .cons { name := "mode" } (.words (modeWords mode)) <|
    .last { name := "rules" } (.list (w.items ws))

def Limiter.fields (l : Limiter) : Fields :=
  .cons { name := "max" } (.words (numberWords l.max)) <|
    .last { name := "mode" } (.words (limitModeWords l.mode))

/-- There is no tree of nothing, and none of a rule without windows. -/
def fields? : Config → Option Fields
  | ⟨some ⟨mode, w :: ws⟩, some l⟩ =>
      some <| .cons { name := "rule" } (.record (Rule.fields mode w ws)) <|
        .last { name := "global" } (.record l.fields)
  | ⟨some ⟨mode, w :: ws⟩, none⟩ =>
      some <| .last { name := "rule" } (.record (Rule.fields mode w ws))
  | ⟨none, some l⟩ => some <| .last { name := "global" } (.record l.fields)
  | _ => none

/-! ## The text is that of the tree -/

theorem Window.lines_eq (w : Window) (column : Nat) : w.lines column = w.fields.chars column := by
  obtain ⟨span, allowance, estimated⟩ := w
  cases estimated with
  | none =>
      simp [Window.lines, line, Window.fields, Fields.chars, Value.chars, spanWords, numberWords,
        spaces]
  | some n =>
      simp [Window.lines, line, Window.fields, Fields.chars, Value.chars, spanWords, numberWords,
        spaces]

theorem Window.flatMap_lines (w : Window) (ws : List Window) :
    ((w :: ws).flatMap fun w => "  - ".toList ++ w.lines 4) = spaces 2 ++ (w.items ws).chars 2 := by
  induction ws generalizing w with
  | nil => simp [Window.items, Items.chars, Window.lines_eq, spaces]
  | cons w' ws ih =>
      rw [List.flatMap_cons, ih]
      simp [Window.items, Items.chars, Window.lines_eq, spaces]

theorem Rule.lines_eq (mode : RuleMode) (w : Window) (ws : List Window) :
    Rule.lines ⟨mode, w :: ws⟩ = spaces 2 ++ (Rule.fields mode w ws).chars 2 := by
  have hwindows := Window.flatMap_lines w ws
  simp only [Rule.lines, hwindows]
  simp [line, spaces, Rule.fields, Fields.chars, Value.chars, modeWords]

theorem Limiter.lines_eq (l : Limiter) : l.lines = spaces 2 ++ l.fields.chars 2 := by
  simp [Limiter.lines, line, Limiter.fields, Fields.chars, Value.chars, limitModeWords, numberWords,
    spaces]

theorem render_eq {fields : Fields} (h : c.fields? = some fields) :
    c.render = .ofList (fields.chars 0) := by
  unfold fields? at h
  split at h <;> cases h <;>
    simp [render, lines, Rule.lines_eq, Limiter.lines_eq, Fields.chars, Value.chars,
      spaces]

/-! ## The nodes of the tree are read -/

theorem Window.ofNode?_record (w : Window) :
    Window.ofNode? d (.record w.fields.nodes) = some w := by
  obtain ⟨span, allowance, estimated⟩ := w
  have hfields : d.fields? ["window", "allowance", "estimated"]
      (.record (Window.fields ⟨span, allowance, estimated⟩).nodes) =
      some (Window.fields ⟨span, allowance, estimated⟩).nodes := by
    apply Document.fields?_record <;> cases estimated <;> simp [Window.fields, Fields.nodes]
  rw [Window.ofNode?, hfields]
  cases estimated <;>
    simp [required, orDefault, Window.fields, Fields.nodes, Value.node, List.lookup_cons,
      span?_spanWords, number?_numberWords, optional?_numberWords]

theorem Window.items_nodes (w : Window) (ws : List Window) :
    (w.items ws).nodes = (w :: ws).map fun w => .record w.fields.nodes := by
  induction ws generalizing w with
  | nil => rfl
  | cons w' ws ih =>
      rw [Window.items, Items.nodes, ih]
      rfl

theorem Rule.ofNode?_record (mode : RuleMode) (w : Window) (ws : List Window) :
    Rule.ofNode? d (.record (Rule.fields mode w ws).nodes) = some ⟨mode, w :: ws⟩ := by
  have hfields : d.fields? ["mode", "rules"] (.record (Rule.fields mode w ws).nodes) =
      some (Rule.fields mode w ws).nodes := by
    apply Document.fields?_record <;> simp [Rule.fields, Fields.nodes]
  have hmode : orDefault (Rule.fields mode w ws).nodes "mode" .independent
      (fun n => do modeOfName? (← d.variant? n)) = some mode := by
    cases mode <;> rfl
  have hwindows : required (Rule.fields mode w ws).nodes "rules"
      (fun n => do (← d.items? n).mapM (Window.ofNode? d)) = some (w :: ws) := by
    have hitems : required (Rule.fields mode w ws).nodes "rules"
        (fun n => do (← d.items? n).mapM (Window.ofNode? d)) =
        (w.items ws).nodes.mapM (Window.ofNode? d) := rfl
    rw [hitems, Window.items_nodes, Yaml.mapM_map_eq_some Window.ofNode?_record]
  rw [Rule.ofNode?, hfields]
  simp only [Option.bind_eq_bind, Option.bind_some] at hmode hwindows ⊢
  rw [hmode, hwindows]
  rfl

theorem Limiter.ofNode?_record (l : Limiter) :
    Limiter.ofNode? d (.record l.fields.nodes) = some l := by
  have hfields : d.fields? ["max", "mode"] (.record l.fields.nodes) = some l.fields.nodes := by
    apply Document.fields?_record <;> simp [Limiter.fields, Fields.nodes]
  have hmode : limitModeOfName? (limitModeName l.mode) = some l.mode := by cases l.mode <;> rfl
  rw [Limiter.ofNode?, hfields]
  simp [required, orDefault, Limiter.fields, Fields.nodes, Value.node, List.lookup_cons,
    number?_numberWords, Document.variant?, Document.target, limitModeWords, hmode]

theorem optional?_record {α : Type} (read : Node → Option α) (fields : List (String × Node)) :
    d.optional? read (.record fields) = (read (.record fields)).map some :=
  rfl

theorem ofDocument?_record {fields : Fields} (h : c.fields? = some fields) :
    ofDocument? ⟨.record fields.nodes, []⟩ = some c := by
  unfold fields? at h
  split at h <;> cases h
  all_goals
    rw [ofDocument?, Document.fields?_record (by simp [Fields.nodes]) (by simp [Fields.nodes])]
    simp [orDefault, Fields.nodes, Value.node, List.lookup_cons, optional?_record,
      Rule.ofNode?_record, Limiter.ofNode?_record]

/-! ## Saving and loading -/

theorem read?_render (h : ∀ r, c.rule = some r → r.windows ≠ []) : read? c.render = some c := by
  cases hfields : c.fields? with
  | some fields =>
      rw [read?, render_eq hfields, fields.ofText?_chars]
      exact ofDocument?_record hfields
  | none =>
      obtain ⟨rule, limiter⟩ := c
      cases rule with
      | none =>
          cases limiter with
          | none => rfl
          | some l => cases hfields
      | some r =>
          obtain ⟨mode, windows⟩ := r
          obtain ⟨w, ws, rfl⟩ := List.exists_cons_of_ne_nil (h _ rfl)
          cases limiter <;> cases hfields

theorem validate_eq_ok_iff {c' : Config} :
    c.validate = .ok c' ↔ c = c' ∧ ∀ r, c.rule = some r → r.windows ≠ [] := by
  have hempty : c.rule.any (·.windows.isEmpty) = true ↔ ∃ r, c.rule = some r ∧ r.windows = [] := by
    simp [Option.any_eq_true]
  rw [validate]
  split
  next h =>
    obtain ⟨r, hr, hwindows⟩ := hempty.1 h
    simp [hr, hwindows]
  next h =>
    rw [hempty] at h
    push Not at h
    simpa using fun _ => h

theorem windows_ne_nil_of_parse {s : String} (h : parse s = .ok c) :
    ∀ r, c.rule = some r → r.windows ≠ [] := by
  unfold parse at h
  split at h
  next c' _ =>
    obtain ⟨rfl, hwindows⟩ := validate_eq_ok_iff.1 h
    exact hwindows
  next => cases h

/--
A configuration that is of use is what its text describes, and so is every configuration that was
read; its text then stays the same from one saving to the next.
-/
theorem parse_render :
    (∀ c : Config, (∀ r, c.rule = some r → r.windows ≠ []) → parse c.render = .ok c) ∧
      ∀ (s : String) (c : Config), parse s = .ok c →
        parse c.render = .ok c ∧ (parse c.render).map render = .ok c.render := by
  have hsaved : ∀ c : Config, (∀ r, c.rule = some r → r.windows ≠ []) →
      parse c.render = .ok c := by
    intro c hwindows
    rw [parse, read?_render hwindows]
    exact validate_eq_ok_iff.2 ⟨rfl, hwindows⟩
  refine ⟨hsaved, fun s c hs => ?_⟩
  have hc := hsaved c (windows_ne_nil_of_parse hs)
  rw [hc]
  exact ⟨rfl, rfl⟩

/-- The longest span with the largest numbers, and a document in a style of its own. -/
theorem parse_render_longest_and_by_hand :
    let longest : Config :=
      ⟨some ⟨.transactional, [⟨⟨.ofNat (2 ^ 64 - 1), 999999999⟩, .ofNat (2 ^ 64 - 1), some 0⟩]⟩,
        none⟩
    let text := "rule: # by hand\n  rules: [\x7bwindow: 1.5 days, allowance: 3\x7d]\n"
    let c : Config := ⟨some ⟨.independent, [⟨.ofSecs 129600, 3, none⟩]⟩, none⟩
    parse longest.render = .ok longest ∧ parse text = .ok c ∧
      c.render = "rule:\n  mode: independent\n  rules:\n  - window: 1day 12h\n    allowance: 3\n" ∧
      parse c.render = .ok c ∧ (parse c.render).map render = .ok c.render := by
  intro longest text c
  have htext : parse text = .ok c := by decide +kernel
  have hrender : c.render =
      "rule:\n  mode: independent\n  rules:\n  - window: 1day 12h\n    allowance: 3\n" := by
    decide +kernel
  refine ⟨parse_render.1 longest ?_, htext, hrender, parse_render.2 text c htext⟩
  rintro r ⟨rfl⟩
  simp

end Throttle.Config
