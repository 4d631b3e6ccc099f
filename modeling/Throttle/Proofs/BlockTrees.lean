import Throttle.Proofs.BlockNodes
import Throttle.Proofs.BlockStyle
import Throttle.Proofs.CoreSchema

/-!
# Trees in block style

Block style nests by columns: the fields of a record stand two columns right of its key, and the
items of a list are records behind a dash in the column of the key.  Every tree of this kind is read
back from its text.  On the way it is a row of tokens, which the scanner takes from the text and the
builder turns into nodes; each of the two steps is an induction over the tree.
-/

namespace Throttle.Yaml.Block

open Text (IsWord IsWords)

/-! ## Trees, their texts, tokens and nodes -/

/-- A word short enough to be a key on its line. -/
structure Key where
  name : String
  isWord : IsWord name.toList := by decide
  short : name.toList.length ≤ 1024 := by decide

structure Words where
  text : String
  isWords : ∃ words, IsWords text.toList words

mutual

/-- What a key stands for. -/
inductive Value where
  | words (w : Words)
  | record (fields : Fields)
  | list (items : Items)

/-- At least one key with its value. -/
inductive Fields where
  | last (key : Key) (value : Value)
  | cons (key : Key) (value : Value) (rest : Fields)

inductive Items where
  | last (item : Fields)
  | cons (item : Fields) (rest : Items)

end

def spaces (n : Nat) : List Char := List.replicate n ' '

mutual

/-- The text behind the colon of a key in the given column. -/
def Value.chars (column : Nat) : Value → List Char
  | .words w => ' ' :: (w.text.toList ++ ['\n'])
  | .record fields => '\n' :: (spaces (column + 2) ++ fields.chars (column + 2))
  | .list items => '\n' :: (spaces column ++ items.chars column)

/-- The text from the first key on. -/
def Fields.chars (column : Nat) : Fields → List Char
  | .last key value => key.name.toList ++ ':' :: value.chars column
  | .cons key value rest =>
      key.name.toList ++ ':' :: (value.chars column ++ (spaces column ++ rest.chars column))

def Items.chars (column : Nat) : Items → List Char
  | .last item => '-' :: ' ' :: item.chars (column + 2)
  | .cons item rest =>
      '-' :: ' ' :: (item.chars (column + 2) ++ (spaces column ++ rest.chars column))

end

mutual

def Value.tokens : Value → List Token
  | .words w => [.scalar w.text .plain]
  | .record fields => .blockMappingStart :: (fields.tokens ++ [.blockEnd])
  | .list items => items.tokens

def Fields.tokens : Fields → List Token
  | .last key value => .key :: .scalar key.name .plain :: .value :: value.tokens
  | .cons key value rest =>
      .key :: .scalar key.name .plain :: .value :: (value.tokens ++ rest.tokens)

def Items.tokens : Items → List Token
  | .last item => .blockEntry :: .blockMappingStart :: (item.tokens ++ [.blockEnd])
  | .cons item rest =>
      .blockEntry :: .blockMappingStart :: (item.tokens ++ .blockEnd :: rest.tokens)

end

mutual

def Value.node : Value → Node
  | .words w => .scalar w.text .plain none
  | .record fields => .record fields.nodes
  | .list items => .sequence items.nodes

def Fields.nodes : Fields → List (String × Node)
  | .last key value => [(key.name, value.node)]
  | .cons key value rest => (key.name, value.node) :: rest.nodes

def Items.nodes : Items → List Node
  | .last item => [.record item.nodes]
  | .cons item rest => .record item.nodes :: rest.nodes

end

/-! ## From the text to the tokens -/

section Scanning

variable {column n : Nat} {indents : List Nat} {ts : List Token} {tail : List Char}

theorem atGap_chars (value : Value) (column : Nat) (tail : List Char) :
    atGap (value.chars column ++ tail) = true := by
  cases value <;> rfl

theorem Fields.exists_key (fields : Fields) (column : Nat) (tail : List Char) :
    ∃ (key : Key) (cs : List Char),
      fields.chars column ++ tail = key.name.toList ++ ':' :: cs ∧ atGap cs = true := by
  cases fields with
  | last key value =>
      refine ⟨key, value.chars column ++ tail, ?_, atGap_chars value column tail⟩
      simp [Fields.chars]
  | cons key value rest =>
      refine ⟨key, value.chars column ++ (spaces column ++ rest.chars column ++ tail), ?_,
        atGap_chars value column _⟩
      simp [Fields.chars]

theorem Fields.isStart (fields : Fields) (column : Nat) (tail : List Char) :
    IsStart (fields.chars column ++ tail) := by
  obtain ⟨key, cs, hcs, -⟩ := fields.exists_key column tail
  rw [hcs]
  exact isStart_of_word key.isWord _

theorem Items.isStart (items : Items) (column : Nat) (tail : List Char) :
    IsStart (items.chars column ++ tail) := by
  cases items <;>
  · rintro c ⟨rfl⟩
    exact .inr rfl

/-- The fields are scanned up to a line that is no deeper. -/
def Fields.Scanned (fields : Fields) : Prop :=
  ∀ (indents : List Nat) (ts : List Token) ⦃column n : Nat⦄ ⦃tail : List Char⦄, IsStart tail →
    n ≤ column →
      Spot.Leads ⟨column, column :: indents, ts, fields.chars column ++ (spaces n ++ tail)⟩
        ⟨n, column :: indents, ts ++ fields.tokens, tail⟩

/-- A record opens a block of its own, which the next line closes. -/
theorem Fields.Scanned.block {fields : Fields} (h : fields.Scanned) (indents : List Nat)
    (ts : List Token) (hstart : IsStart tail) (hn : n ≤ column) :
    Spot.Leads ⟨column + 2, column :: indents, ts,
        fields.chars (column + 2) ++ (spaces n ++ tail)⟩
      ⟨n, column :: indents, ts ++ .blockMappingStart :: (fields.tokens ++ [.blockEnd]), tail⟩ := by
  obtain ⟨key, cs, hcs, hgap⟩ := fields.exists_key (column + 2) (spaces n ++ tail)
  have hopen := Spot.leads_open (column + 2) (column :: indents) ts key.isWord key.short hgap hcs
    (by simp)
  have hfields := h (column :: indents) (ts ++ [.blockMappingStart]) hstart
    (Nat.le_trans hn (Nat.le_add_right column 2))
  have hclose := Spot.leads_close (column :: indents)
    (ts ++ [.blockMappingStart] ++ fields.tokens) hstart
    (Nat.lt_add_right 1 (Nat.lt_succ_of_le hn))
  have hall := (hopen.trans hfields).trans hclose
  simpa only [List.append_assoc, List.cons_append, List.nil_append] using hall

mutual

theorem Value.scanned (key : Key) (value : Value) (indents : List Nat) (ts : List Token)
    {column n : Nat} {tail : List Char} (hstart : IsStart tail) (hn : n ≤ column) :
    Spot.Leads ⟨column, column :: indents, ts,
        key.name.toList ++ ':' :: (value.chars column ++ (spaces n ++ tail))⟩
      ⟨n, column :: indents, ts ++ .key :: .scalar key.name .plain :: .value :: value.tokens,
        tail⟩ := by
  cases value with
  | words w =>
      obtain ⟨words, hwords⟩ := w.isWords
      have hfield := Spot.leads_field indents ts key.isWord key.short hwords hstart hn
      simpa [Value.chars, Value.tokens, spaces] using hfield
  | record fields =>
      have hheader := Spot.leads_header column (column + 2) indents ts key.isWord key.short
        (fields.isStart (column + 2) (spaces n ++ tail))
      have hblock := fields.scanned.block indents (ts ++ [.key, .scalar key.name .plain, .value])
        hstart hn
      rw [String.ofList_toList] at hheader
      simpa [Value.chars, Value.tokens, spaces] using hheader.trans hblock
  | list items =>
      have hheader := Spot.leads_header column column indents ts key.isWord key.short
        (items.isStart column (spaces n ++ tail))
      have hitems := items.scanned indents (ts ++ [.key, .scalar key.name .plain, .value])
        hstart hn
      rw [String.ofList_toList] at hheader
      simpa [Value.chars, Value.tokens, spaces] using hheader.trans hitems

theorem Fields.scanned (fields : Fields) : fields.Scanned := by
  intro indents ts column n tail hstart hn
  cases fields with
  | last key value =>
      simpa [Fields.chars, Fields.tokens] using value.scanned key indents ts hstart hn
  | cons key value rest =>
      have hvalue := value.scanned key indents ts (rest.isStart column (spaces n ++ tail))
        (Nat.le_refl column)
      have hrest := rest.scanned indents
        (ts ++ .key :: .scalar key.name .plain :: .value :: value.tokens) hstart hn
      simpa [Fields.chars, Fields.tokens] using hvalue.trans hrest

theorem Items.scanned (items : Items) (indents : List Nat) (ts : List Token) {column n : Nat}
    {tail : List Char} (hstart : IsStart tail) (hn : n ≤ column) :
    Spot.Leads ⟨column, column :: indents, ts, items.chars column ++ (spaces n ++ tail)⟩
      ⟨n, column :: indents, ts ++ items.tokens, tail⟩ := by
  cases items with
  | last item =>
      have hdash := Spot.leads_dash column indents ts
        (item.isStart (column + 2) (spaces n ++ tail))
      have hitem := item.scanned.block indents (ts ++ [.blockEntry]) hstart hn
      simpa [Items.chars, Items.tokens] using hdash.trans hitem
  | cons item rest =>
      have hdash := Spot.leads_dash column indents ts
        (item.isStart (column + 2) (spaces column ++ (rest.chars column ++ (spaces n ++ tail))))
      have hitem := item.scanned.block indents (ts ++ [.blockEntry])
        (rest.isStart column (spaces n ++ tail)) (Nat.le_refl column)
      have hrest := rest.scanned indents
        (ts ++ [.blockEntry] ++ .blockMappingStart :: (item.tokens ++ [.blockEnd])) hstart hn
      simpa [Items.chars, Items.tokens] using (hdash.trans hitem).trans hrest

end

end Scanning

/-! ## From the tokens to the nodes -/

section Building

open Builder (Reads ReadsEntries ReadsItems StartsNode readsEntries_nil readsItems_nil)

theorem Value.startsNode (value : Value) : StartsNode value.tokens := by
  cases value with
  | words w => exact ⟨_, _, rfl, by simp⟩
  | record fields => exact ⟨_, _, rfl, by simp⟩
  | list items => cases items <;> exact ⟨_, _, rfl, by simp⟩

theorem Fields.head?_tokens (fields : Fields) : fields.tokens.head? = some .key := by
  cases fields <;> rfl

mutual

theorem Value.reads (value : Value) : Reads value.tokens value.node := by
  cases value with
  | words w => exact Builder.reads_scalar w.text
  | record fields => exact fields.readsEntries.reads
  | list items =>
      have hitems := items.readsItems
      cases items <;> exact hitems.reads

theorem Fields.readsEntries (fields : Fields) :
    ReadsEntries fields.tokens (fields.nodes.map fun f => (.scalar f.1 .plain none, f.2)) := by
  cases fields with
  | last key value =>
      have hlast := readsEntries_nil.cons key.name value.reads value.startsNode (by simp)
      simpa [Fields.tokens, Fields.nodes] using hlast
  | cons key value rest =>
      exact rest.readsEntries.cons key.name value.reads value.startsNode
        (by simp [rest.head?_tokens])

theorem Items.readsItems (items : Items) : ReadsItems items.tokens items.nodes := by
  cases items with
  | last item => exact readsItems_nil.cons item.readsEntries
  | cons item rest => exact rest.readsItems.cons item.readsEntries

end

end Building

/-! ## From the text to the document -/

theorem all_isBlockChar_of_isWords {text : List Char} {words : List (List Char)}
    (h : IsWords text words) : text.all isBlockChar = true := by
  refine List.all_eq_true.2 fun c hc => ?_
  rw [h.text_eq] at hc
  rcases Text.mem_join hc with rfl | ⟨w, hw, hcw⟩
  · rfl
  · rw [isBlockChar, (h.word w hw).alphanum c hcw, Bool.true_or]

theorem Key.all_isBlockChar (key : Key) : key.name.toList.all isBlockChar = true :=
  all_isBlockChar_of_isWords key.isWord.isWords

theorem all_isBlockChar_spaces (n : Nat) : (spaces n).all isBlockChar = true := by
  have hspace : isBlockChar ' ' = true := rfl
  rw [spaces, List.all_replicate, hspace, ite_self]

theorem isBlockChar_marks :
    isBlockChar ':' = true ∧ isBlockChar ' ' = true ∧ isBlockChar '-' = true ∧
      isBlockChar '\n' = true := by
  decide

-- The `all` stays a boolean: it distributes over the parts of a text, which membership does not.
mutual

theorem Value.all_isBlockChar (value : Value) (column : Nat) :
    (value.chars column).all isBlockChar = true := by
  cases value with
  | words w =>
      obtain ⟨words, hwords⟩ := w.isWords
      simp [-List.all_eq_true, Value.chars, isBlockChar_marks, all_isBlockChar_of_isWords hwords]
  | record fields =>
      simp [-List.all_eq_true, Value.chars, isBlockChar_marks, all_isBlockChar_spaces,
        fields.all_isBlockChar]
  | list items =>
      simp [-List.all_eq_true, Value.chars, isBlockChar_marks, all_isBlockChar_spaces,
        items.all_isBlockChar]

theorem Fields.all_isBlockChar (fields : Fields) (column : Nat) :
    (fields.chars column).all isBlockChar = true := by
  cases fields with
  | last key value =>
      simp [-List.all_eq_true, Fields.chars, isBlockChar_marks, key.all_isBlockChar,
        value.all_isBlockChar]
  | cons key value rest =>
      simp [-List.all_eq_true, Fields.chars, isBlockChar_marks, all_isBlockChar_spaces,
        key.all_isBlockChar, value.all_isBlockChar, rest.all_isBlockChar]

theorem Items.all_isBlockChar (items : Items) (column : Nat) :
    (items.chars column).all isBlockChar = true := by
  cases items with
  | last item =>
      simp [-List.all_eq_true, Items.chars, isBlockChar_marks, item.all_isBlockChar]
  | cons item rest =>
      simp [-List.all_eq_true, Items.chars, isBlockChar_marks, all_isBlockChar_spaces,
        item.all_isBlockChar, rest.all_isBlockChar]

end

/-- Every tree is read back from its text. -/
theorem Fields.ofText?_chars (fields : Fields) :
    Document.ofText? (.ofList (fields.chars 0)) = some ⟨.record fields.nodes, []⟩ := by
  obtain ⟨key, cs, hcs, hgap⟩ := fields.exists_key 0 []
  rw [List.append_nil] at hcs
  have hopen := Spot.leads_open 0 [] [] key.isWord key.short hgap hcs rfl
  have hend : IsStart [] := by simp [IsStart]
  have hfields := fields.scanned [] [.blockMappingStart] hend (Nat.le_refl 0)
  simp only [spaces, List.replicate_zero, List.append_nil] at hfields
  have htokens := tokens?_of_leads (List.all_eq_true.1 (fields.all_isBlockChar 0))
    (hopen.trans hfields)
  rw [Document.ofText?, htokens]
  exact Builder.ofTokens?_mapping fields.readsEntries

end Throttle.Yaml.Block
