import Throttle.Proofs.Words
import Throttle.Yaml.Tokens

/-!
# Scanning of block collections

Text in block style is a row of lines: `key: words`, `key:` with a collection below it, and entries
that start with a dash.  The scanner takes up each line where its first token begins.  There the
open columns, the tokens so far and the unread text say all that matters; such a `Spot` leads to the
one at the next line.  Blocks are opened and closed in between, as the columns demand.
-/

namespace Throttle.Yaml

open Text (IsWord IsWords)

variable {c : Char} {cs w key tail : List Char} {line column n limit : Nat} {p : Place}

/-! ## Letters and digits -/

section Alphanum

variable (h : c.isAlphanum = true)
include h

theorem isBreak_of_isAlphanum : isBreak c = false := by
  simp [isBreak, Text.ne_of_isAlphanum h]

theorem isWhite_of_isAlphanum : isWhite c = false := by
  simp [isWhite, Text.ne_of_isAlphanum h]

theorem isIndicator_of_isAlphanum : Scan.isIndicator c = false := by
  have hall : "-?:,[]\x7b\x7d#&*!|>'\"%@`".toList.all (!·.isAlphanum) = true := by decide
  rw [Scan.isIndicator, ← Bool.not_eq_true, List.contains_iff_mem]
  intro hc
  have hnot := List.all_eq_true.1 hall c hc
  simp [h] at hnot

end Alphanum

def Place.plus (p : Place) (n : Nat) : Place := ⟨p.line, p.column + n, p.bytes + n⟩

theorem foldl_after (p : Place) (hw : ∀ c ∈ w, c.utf8Size = 1) :
    w.foldl .after p = p.plus w.length := by
  induction w generalizing p with
  | nil => rfl
  | cons c w ih =>
      obtain ⟨hc, hw⟩ := List.forall_mem_cons.1 hw
      rw [List.foldl_cons, ih _ hw, Place.after, hc]
      simp only [Place.plus, List.length_cons]
      congr 1 <;> omega

theorem Cursor.within_append (p : Place) (hw : ∀ c ∈ w, c.utf8Size = 1) (rest : List Char) :
    (⟨p, w ++ rest⟩ : Cursor).within rest = ⟨p.plus w.length, rest⟩ := by
  simp [Cursor.within, foldl_after p hw]

/-! ## Gaps -/

/-- What a line may go on with where a token is to begin: a word, a dash or nothing at all. -/
def IsStart (cs : List Char) : Prop := ∀ c ∈ cs.head?, c.isAlphanum = true ∨ c = '-'

theorem IsStart.not_gap (h : IsStart (c :: cs)) : isBreak c = false ∧ isWhite c = false := by
  rcases h c rfl with hc | rfl
  · exact ⟨isBreak_of_isAlphanum hc, isWhite_of_isAlphanum hc⟩
  · decide

theorem IsStart.ne (h : IsStart (c :: cs)) {d : Char} (hd : d.isAlphanum = false ∧ d ≠ '-') :
    c ≠ d := by
  rcases h c rfl with hc | rfl
  · exact Text.ne_of_isAlphanum hc hd.1
  · exact hd.2.symm

theorem isStart_of_word (h : IsWord w) (cs : List Char) : IsStart (w ++ cs) := by
  obtain ⟨d, ds, rfl⟩ := List.exists_cons_of_ne_nil h.ne_nil
  rintro c ⟨rfl⟩
  exact .inl (h.alphanum _ List.mem_cons_self)

theorem Place.after_space (p : Place) (n : Nat) : (p.after ' ').plus n = p.plus (n + 1) := by
  have hsize : ' '.utf8Size = 1 := rfl
  simp only [Place.after, Place.plus, hsize]
  congr 1 <;> omega

theorem isStart_join (words : List (List Char)) (hne : words ≠ []) (hwords : ∀ w ∈ words, IsWord w)
    (cs : List Char) : IsStart (Text.join ' ' words ++ cs) := by
  cases words with
  | nil => contradiction
  | cons w words =>
      have hw := hwords w List.mem_cons_self
      cases words with
      | nil => exact isStart_of_word hw cs
      | cons w' words =>
          rw [Text.join_cons_cons, List.append_assoc]
          exact isStart_of_word hw _

theorem skipGap_spaces (inFlow keyAllowed : Bool) (p : Place) (n : Nat) (cs : List Char) :
    Scan.skipGap inFlow false keyAllowed p (List.replicate n ' ' ++ cs) =
      Scan.skipGap inFlow false keyAllowed (p.plus n) cs := by
  induction n generalizing p with
  | zero => rfl
  | succ n ih =>
      have hspace : (' ' == '\ufeff') = false := by decide
      rw [List.replicate_succ, List.cons_append, Scan.skipGap, ← p.after_space, ← ih]
      simp [isBreak, hspace]

theorem IsStart.skipGap (h : IsStart cs) (inFlow keyAllowed : Bool) (p : Place) :
    Scan.skipGap inFlow false keyAllowed p cs = (⟨p, cs⟩, keyAllowed) := by
  cases cs with
  | nil => rfl
  | cons c cs =>
      have hspace : c ≠ ' ' := h.ne (by decide)
      have htab : c ≠ '\t' := h.ne (by decide)
      have hmark : c ≠ '\ufeff' := h.ne (by decide)
      have hcomment : c ≠ '#' := h.ne (by decide)
      simp [Scan.skipGap, h.not_gap.1, hspace, htab, hmark, hcomment]

theorem skipGap_break (h : IsStart cs) (keyAllowed : Bool) (p : Place) (n : Nat) :
    Scan.skipGap false false keyAllowed p ('\n' :: (List.replicate n ' ' ++ cs)) =
      (⟨p.nextLine.plus n, cs⟩, true) := by
  have hbreak : isBreak '\n' = true := rfl
  rw [Scan.skipGap, if_pos hbreak, skipGap_spaces, h.skipGap, Bool.not_false, Bool.or_true]

theorem Gap.read_spaces (indent : Nat) (h : IsStart cs) (n : Nat) (p : Place) :
    Gap.read indent true p (List.replicate n ' ' ++ cs) = some (⟨[], []⟩, ⟨p.plus n, cs⟩) := by
  induction n generalizing p with
  | zero =>
      cases cs with
      | nil => rfl
      | cons c cs =>
          obtain ⟨hbreak, hwhite⟩ := h.not_gap
          simp [Gap.read, hbreak, hwhite, Place.plus]
  | succ n ih =>
      have htab : (' ' == '\t') = false := by decide
      rw [List.replicate_succ, List.cons_append, Gap.read, ← p.after_space]
      simp [isBreak, isWhite, htab, ih]

/-- The gap at the end of a line goes on to the first token of the next. -/
theorem Gap.read_break (indent : Nat) (h : IsStart cs) (n : Nat) (p : Place) :
    Gap.read indent false p ('\n' :: (List.replicate n ' ' ++ cs)) =
      some (⟨[], ['\n']⟩, ⟨p.nextLine.plus n, cs⟩) := by
  rw [Gap.read, Gap.read_spaces indent h]
  rfl

theorem Gap.read_space (indent : Nat) (h : IsStart cs) (p : Place) :
    Gap.read indent false p (' ' :: cs) = some (⟨[' '], []⟩, ⟨p.plus 1, cs⟩) := by
  have hspace : p.after ' ' = p.plus 1 := p.after_space 0
  have hrest : Gap.read indent false (p.plus 1) cs = some (⟨[], []⟩, ⟨p.plus 1, cs⟩) := by
    cases cs with
    | nil => rfl
    | cons c cs => simp [Gap.read, h.not_gap]
  rw [Gap.read, hspace]
  simp [isBreak, isWhite, hrest]

/-! ## Plain scalars -/

/-- What ends a stretch of a plain scalar in block context. -/
inductive EndsChunk : List Char → Prop where
  | space (cs : List Char) : EndsChunk (' ' :: cs)
  | lineEnd (cs : List Char) : EndsChunk ('\n' :: cs)
  | colon {cs : List Char} : atGap cs = true → EndsChunk (':' :: cs)

theorem chunk?_word (hw : ∀ c ∈ w, c.isAlphanum = true) (htail : EndsChunk tail) :
    Plain.chunk? false (w ++ tail) = some (w, tail) := by
  induction w with
  | nil =>
      cases htail with
      | space => simp [Plain.chunk?, isWhite]
      | lineEnd => simp [Plain.chunk?, isBreak]
      | colon hgap => simp [Plain.chunk?, hgap, isWhite, isBreak]
  | cons c w ih =>
      obtain ⟨hc, hw⟩ := List.forall_mem_cons.1 hw
      have hcolon : c ≠ ':' := Text.ne_of_isAlphanum hc (by decide)
      rw [List.cons_append, Plain.chunk?, ih hw]
      simp [isWhite_of_isAlphanum hc, isBreak_of_isAlphanum hc, hcolon]

theorem readChunks_word (hw : IsWord w) (htail : EndsChunk tail) (indent limit : Nat) (before : Gap)
    (p : Place) :
    Plain.readChunks false indent (limit + 1) before ⟨p, w ++ tail⟩ = (do
      let (after, next) ← Gap.read indent false (p.plus w.length) tail
      if next.column < indent || after.whites.isEmpty && after.breaks.isEmpty then
        some ⟨before.text ++ w, !after.breaks.isEmpty, next⟩
      else
        let more ← Plain.readChunks false indent limit after next
        some { more with text := before.text ++ w ++ more.text }) := by
  have hchunk := chunk?_word hw.alphanum htail
  have hwithin := Cursor.within_append p
    (fun c hc => Text.utf8Size_of_isAlphanum (hw.alphanum c hc)) tail
  have hne : w.isEmpty = false := by simpa using hw.ne_nil
  have hstop : ((⟨p, w ++ tail⟩ : Cursor).atDocumentMarker || nextIs (· == '#') (w ++ tail)) =
      false := by
    obtain ⟨c, ds, rfl⟩ := List.exists_cons_of_ne_nil hw.ne_nil
    have hc := hw.alphanum c List.mem_cons_self
    simp [Cursor.atDocumentMarker, Cursor.atMarker, nextIs, Text.ne_of_isAlphanum hc]
  rw [Plain.readChunks]
  simp only [hstop, hchunk, hwithin, hne, Cursor.gap?, Bool.false_eq_true, if_false, Bool.not_false,
    Bool.true_and, Option.bind_eq_bind, Option.bind_some]

/-- Words up to the end of a line that the next line does not continue. -/
theorem readChunks_words {words : List (List Char)} (hne : words ≠ [])
    (hwords : ∀ w ∈ words, IsWord w) {indent : Nat} (hn : n < indent) (hstart : IsStart tail)
    (hlimit : words.length ≤ limit) (before : Gap) (p : Place) (hp : indent ≤ p.column) :
    Plain.readChunks false indent limit before
        ⟨p, Text.join ' ' words ++ '\n' :: (List.replicate n ' ' ++ tail)⟩ =
      some ⟨before.text ++ Text.join ' ' words, true, ⟨⟨p.line + 1, n, n⟩, tail⟩⟩ := by
  induction words generalizing limit before p with
  | nil => contradiction
  | cons w words ih =>
      obtain ⟨hw, hwords⟩ := List.forall_mem_cons.1 hwords
      obtain ⟨limit, rfl⟩ := Nat.exists_eq_succ_of_ne_zero (Nat.ne_zero_of_lt hlimit)
      cases words with
      | nil =>
          have hplace : (p.plus w.length).nextLine.plus n = ⟨p.line + 1, n, n⟩ := by
            simp [Place.plus, Place.nextLine]
          rw [Text.join, readChunks_word hw (.lineEnd _), Gap.read_break indent hstart, hplace]
          simp [hn]
      | cons w' words =>
          have hnext := isStart_join (w' :: words) (by simp) hwords
            ('\n' :: (List.replicate n ' ' ++ tail))
          have hmore := ih (by simp) hwords (Nat.le_of_succ_le_succ hlimit) ⟨[' '], []⟩
            ((p.plus w.length).plus 1) (by simp only [Place.plus]; omega)
          have hcolumn : ¬ ((p.plus w.length).plus 1).column < indent := by
            simp only [Place.plus]
            omega
          rw [Text.join_cons_cons, List.append_assoc, List.cons_append,
            readChunks_word hw (.space _), Gap.read_space indent hnext]
          simp only [Option.bind_eq_bind, Option.bind_some, hmore, hcolumn]
          simp [Gap.text, Place.plus]

theorem readChunks_key (hkey : IsWord key) (hgap : atGap cs = true) (indent limit : Nat)
    (p : Place) :
    Plain.readChunks false indent (limit + 1) ⟨[], []⟩ ⟨p, key ++ ':' :: cs⟩ =
      some ⟨key, false, ⟨p.plus key.length, ':' :: cs⟩⟩ := by
  have hread : Gap.read indent false (p.plus key.length) (':' :: cs) =
      some (⟨[], []⟩, ⟨p.plus key.length, ':' :: cs⟩) := by
    simp [Gap.read, isBreak, isWhite]
  rw [readChunks_word hkey (.colon hgap), hread]
  simp [Gap.text]

/-! ## One token after the other -/

namespace Scan

variable {s s' s'' : Scan}

theorem run_eq_of_approach (h : s.approach? = s'.approach?) (limit : Nat) :
    run limit s = run limit s' := by
  cases limit with
  | zero => rfl
  | succ limit => rw [run, run, h]

theorem run_fetch (happroach : s.approach? = some s') (hrest : s'.cursor.rest = c :: cs)
    (hfetch : s'.fetch? c cs = some s'') (limit : Nat) : run (limit + 1) s = run limit s'' := by
  rw [run, happroach]
  simp only [Option.bind_eq_bind, Option.bind_some, hrest, hfetch]

/-- Outside flow collections nothing but an open key can keep a reading from its next token. -/
theorem approach?_eq (houter : s.outer = []) {k : Option PossibleKey} {cursor : Cursor}
    {keyAllowed : Bool}
    (hgap : skipGap false false s.keyAllowed s.cursor.toPlace s.cursor.rest = (cursor, keyAllowed))
    (hkey : renew? cursor s.key = some k) :
    s.approach? =
      some ({ s with cursor, keyAllowed, key := k }.unindent (· ≤ cursor.column)) := by
  simp [approach?, inFlow, houter, hgap, hkey]

theorem closeBlocks_of_keep {keep : Nat → Bool} {indents : List Nat}
    (h : indents.head?.all keep = true) (ts : List Token) :
    closeBlocks keep indents ts = (indents, ts) := by
  cases indents with
  | nil => rfl
  | cons i is => simp_all [closeBlocks]

theorem closeBlocks_all (indents : List Nat) (ts : List Token) :
    closeBlocks (fun _ => false) indents ts =
      ([], List.replicate indents.length .blockEnd ++ ts) := by
  induction indents generalizing ts with
  | nil => rfl
  | cons i is ih => simp [closeBlocks, ih, List.replicate_succ']

theorem closeBlocks_closeBlocks (keep : Nat → Bool) (indents : List Nat) (ts : List Token) :
    closeBlocks (fun _ => false) (closeBlocks keep indents ts).1 (closeBlocks keep indents ts).2 =
      ([], List.replicate indents.length .blockEnd ++ ts) := by
  induction indents generalizing ts with
  | nil => rfl
  | cons i is ih =>
      cases hkeep : keep i with
      | true => simp [closeBlocks, hkeep, closeBlocks_all, List.replicate_succ']
      | false => simp [closeBlocks, hkeep, ih, List.replicate_succ']

theorem unindent_of_keep {keep : Nat → Bool} (h : s.indents.head?.all keep = true) :
    s.unindent keep = s := by
  simp [unindent, closeBlocks_of_keep h]

theorem fetch?_alphanum (hrest : s.cursor.rest = c :: cs)
    (hc : c.isAlphanum = true) : s.fetch? c cs = s.plainScalar? := by
  have hne := @Text.ne_of_isAlphanum c hc
  have hplain : startsPlain s.inFlow c cs = true := by
    simp [startsPlain, isWhite_of_isAlphanum hc, isBreak_of_isAlphanum hc,
      isIndicator_of_isAlphanum hc]
  simp [fetch?, hplain, Cursor.atMarker, hrest, hne]

theorem plainScalar?_words {value : List Char} {words : List (List Char)}
    (hvalue : IsWords value words) {column : Nat} (indents : List Nat) (houter : s.outer = [])
    (hallowed : s.keyAllowed = false) (hindents : s.indents = column :: indents)
    (hrest : s.cursor.rest = value ++ '\n' :: (List.replicate n ' ' ++ tail))
    (hstart : IsStart tail) (hcolumn : column < s.cursor.column) (hn : n ≤ column) :
    s.plainScalar? = some { s with
      cursor := ⟨⟨s.cursor.line + 1, n, n⟩, tail⟩
      keyAllowed := true
      tokens := .scalar (.ofList value) .plain :: s.tokens } := by
  have hlimit : words.length ≤ s.cursor.rest.length + 1 := by
    have hlength := hvalue.length_le
    rw [hrest, List.length_append]
    omega
  have hcursor : s.cursor = ⟨s.cursor.toPlace, s.cursor.rest⟩ := rfl
  have hread := readChunks_words hvalue.ne_nil hvalue.word (Nat.lt_succ_of_le hn) hstart hlimit
    ⟨[], []⟩ s.cursor.toPlace hcolumn
  rw [← hvalue.text_eq, ← hrest, ← hcursor] at hread
  simp [plainScalar?, saveKey?, hallowed, hindents, inFlow, houter, Plain.read?, hread, Gap.text,
    allowKey, put, moveTo]

end Scan

/-! ## From line to line -/

/-- A reading at the first token of a line or entry; the line before is plain ASCII. -/
structure Spot where
  column : Nat
  indents : List Nat
  tokens : List Token
  rest : List Char

namespace Spot

variable {q r : Spot} {indents : List Nat} {ts : List Token}

def scan (q : Spot) (line : Nat) : Scan :=
  ⟨⟨⟨line, q.column, q.column⟩, q.rest⟩, q.indents, none, [], true, q.tokens.reverse⟩

/-- Whatever is to come, scanning from one spot goes on as scanning from the other. -/
def Leads (q r : Spot) : Prop :=
  ∀ line limit, q.rest.length < limit → ∃ line' limit', r.rest.length < limit' ∧
    Scan.run limit (q.scan line) = Scan.run limit' (r.scan line')

theorem Leads.refl (q : Spot) : q.Leads q :=
  fun line limit hlimit => ⟨line, limit, hlimit, rfl⟩

theorem Leads.trans {q' : Spot} (h : q.Leads q') (h' : q'.Leads r) : q.Leads r := by
  intro line limit hlimit
  obtain ⟨line₁, limit₁, hlimit₁, heq⟩ := h line limit hlimit
  obtain ⟨line₂, limit₂, hlimit₂, heq'⟩ := h' line₁ limit₁ hlimit₁
  exact ⟨line₂, limit₂, hlimit₂, heq.trans heq'⟩

theorem leads_of_approach (hlength : r.rest.length ≤ q.rest.length)
    (h : ∀ line, (q.scan line).approach? = (r.scan line).approach?) : q.Leads r :=
  fun line limit hlimit => ⟨line, limit, Nat.lt_of_le_of_lt hlength hlimit,
    Scan.run_eq_of_approach (h line) limit⟩

theorem approach?_scan (hstart : IsStart q.rest) (line : Nat) :
    (q.scan line).approach? = some ((q.scan line).unindent (· ≤ q.column)) :=
  Scan.approach?_eq rfl (hstart.skipGap false true ⟨line, q.column, q.column⟩) rfl

/-- A block that lies deeper than the next token is closed before it. -/
theorem leads_close (indents : List Nat) (ts : List Token) {column i : Nat} {rest : List Char}
    (hstart : IsStart rest) (hi : column < i) :
    Leads ⟨column, i :: indents, ts, rest⟩ ⟨column, indents, ts ++ [.blockEnd], rest⟩ := by
  refine leads_of_approach ?_ fun line => ?_
  · exact Nat.le_refl _
  · rw [approach?_scan hstart, approach?_scan hstart]
    simp [Scan.unindent, Scan.inFlow, scan, Scan.closeBlocks, Nat.not_le.2 hi]

theorem leads_dash (column : Nat) (indents : List Nat) (ts : List Token) {rest : List Char}
    (hstart : IsStart rest) :
    Leads ⟨column, column :: indents, ts, '-' :: ' ' :: rest⟩
      ⟨column + 2, column :: indents, ts ++ [.blockEntry], rest⟩ := by
  intro line limit hlimit
  obtain ⟨limit, rfl⟩ := Nat.exists_eq_succ_of_ne_zero (Nat.ne_zero_of_lt hlimit)
  have hdash : IsStart ('-' :: ' ' :: rest) := by
    rintro c ⟨rfl⟩
    exact .inr rfl
  have happroach := approach?_scan (q := ⟨column, column :: indents, ts, '-' :: ' ' :: rest⟩)
    hdash line
  rw [Scan.unindent_of_keep (by simp [scan])] at happroach
  have hfetch : (scan ⟨column, column :: indents, ts, '-' :: ' ' :: rest⟩ line).fetch? '-'
      (' ' :: rest) = some ⟨⟨⟨line, column + 1, column + 1⟩, ' ' :: rest⟩, column :: indents, none,
        [], true, .blockEntry :: ts.reverse⟩ := by
    have hsize : '-'.utf8Size = 1 := rfl
    simp [scan, Scan.fetch?, Cursor.atMarker, atGap, isWhite, Scan.blockEntry?, Scan.openBlock?,
      Scan.inFlow, Scan.indent, Scan.dropKey?, Scan.allowKey, Scan.take, Scan.put, Scan.moveTo,
      Cursor.skip, Cursor.within, Place.after, hsize]
  have hnext : Scan.approach? ⟨⟨⟨line, column + 1, column + 1⟩, ' ' :: rest⟩, column :: indents,
      none, [], true, .blockEntry :: ts.reverse⟩ =
      (scan ⟨column + 2, column :: indents, ts ++ [.blockEntry], rest⟩ line).approach? := by
    have hgap := skipGap_spaces false true ⟨line, column + 1, column + 1⟩ 1 rest
    rw [hstart.skipGap] at hgap
    rw [Scan.approach?_eq rfl hgap rfl, approach?_scan hstart, Scan.unindent_of_keep,
      Scan.unindent_of_keep]
    · simp [scan, Place.plus]
    · simp [scan]
    · simp only [Place.plus, List.head?_cons, Option.all_some]
      exact decide_eq_true (by omega)
  refine ⟨line, limit, ?_, ?_⟩
  · change rest.length + 2 < limit + 1 at hlimit
    change rest.length < limit
    omega
  · rw [Nat.succ_eq_add_one, Scan.run_fetch happroach rfl hfetch]
    exact Scan.run_eq_of_approach hnext limit

/-- A reading behind a key, which remembers the place before it. -/
def atColon (q : Spot) (key cs : List Char) (line : Nat) : Scan :=
  ⟨⟨⟨line, q.column + key.length, q.column + key.length⟩, ':' :: cs⟩, q.indents,
    some ⟨q.indents.head? == some q.column, q.tokens.length, ⟨line, q.column, q.column⟩⟩, [], false,
    .scalar (.ofList key) .plain :: q.tokens.reverse⟩

/-- A reading behind the colon of a key; a key deeper than the open blocks has opened one. -/
def pastKey (q : Spot) (key cs : List Char) (line : Nat) : Scan :=
  let opens := q.indents.head?.all (· < q.column)
  let start := if opens then .blockMappingStart :: q.tokens.reverse else q.tokens.reverse
  ⟨⟨⟨line, q.column + key.length + 1, q.column + key.length + 1⟩, cs⟩,
    if opens then q.column :: q.indents else q.indents, none, [], false,
    .value :: .scalar (.ofList key) .plain :: .key :: start⟩

theorem plainScalar?_key (hkey : IsWord key) (hgap : atGap cs = true)
    (hrest : q.rest = key ++ ':' :: cs) (line : Nat) :
    (q.scan line).plainScalar? = some (q.atColon key cs line) := by
  have hread := fun indent => readChunks_key hkey hgap indent q.rest.length
    ⟨line, q.column, q.column⟩
  rw [← hrest] at hread
  simp [Scan.plainScalar?, Scan.saveKey?, Scan.dropKey?, scan, Scan.inFlow, Plain.read?, hread,
    Scan.allowKey, Scan.put, Scan.moveTo, Place.plus, atColon]

theorem approach?_atColon (hshort : key.length ≤ 1024)
    (hindents : q.indents.head?.all (· ≤ q.column) = true) (line : Nat) :
    (q.atColon key cs line).approach? = some (q.atColon key cs line) := by
  have hmark : (':' == '\ufeff') = false := by decide
  have hcolon : Scan.skipGap false false (q.atColon key cs line).keyAllowed
      (q.atColon key cs line).cursor.toPlace (q.atColon key cs line).cursor.rest =
      ((q.atColon key cs line).cursor, false) := by
    simp [Scan.skipGap, isBreak, hmark, atColon]
  have hnear : ¬ q.column + 1024 < q.column + key.length := by omega
  have hkey : Scan.renew? (q.atColon key cs line).cursor (q.atColon key cs line).key =
      some (q.atColon key cs line).key := by
    simp [Scan.renew?, atColon, hnear]
  rw [Scan.approach?_eq rfl hcolon hkey]
  refine congrArg some (Scan.unindent_of_keep ?_)
  cases hq : q.indents with
  | nil => simp [atColon, hq]
  | cons i is =>
      simp only [atColon, hq, List.head?_cons, Option.all_some, decide_eq_true_eq] at hindents ⊢
      omega

theorem fetch?_atColon (hgap : atGap cs = true) (line : Nat) :
    (q.atColon key cs line).fetch? ':' cs = some (q.pastKey key cs line) := by
  have hsize : ':'.utf8Size = 1 := rfl
  have hfetch : (q.atColon key cs line).fetch? ':' cs = (q.atColon key cs line).value? := by
    simp [Scan.fetch?, Cursor.atMarker, atColon, hgap]
  have hlater : q.tokens.length + 1 + 1 - q.tokens.length = 2 := by omega
  rw [hfetch]
  by_cases hopens : q.indents.head?.all (· < q.column) = true
  · simp [Scan.value?, Scan.insert, Scan.indent, Scan.inFlow, hopens, pastKey, atColon, Scan.take,
      Scan.put, Scan.moveTo, Scan.allowKey, Cursor.skip, Cursor.within, Place.after, hsize, hlater]
  · simp [Scan.value?, Scan.insert, Scan.indent, Scan.inFlow, hopens, pastKey, atColon, Scan.take,
      Scan.put, Scan.moveTo, Scan.allowKey, Cursor.skip, Cursor.within, Place.after, hsize]

theorem run_key (hkey : IsWord key) (hshort : key.length ≤ 1024) (hgap : atGap cs = true)
    (hrest : q.rest = key ++ ':' :: cs) (hindents : q.indents.head?.all (· ≤ q.column) = true)
    (line limit : Nat) :
    Scan.run (limit + 2) (q.scan line) = Scan.run limit (q.pastKey key cs line) := by
  have hstart : IsStart q.rest := by
    rw [hrest]
    exact isStart_of_word hkey _
  obtain ⟨c, ds, hcs⟩ := List.exists_cons_of_ne_nil hkey.ne_nil
  have hc : c.isAlphanum = true := hkey.alphanum c (by simp [hcs])
  have happroach := approach?_scan hstart line
  rw [Scan.unindent_of_keep hindents] at happroach
  have hhead : (q.scan line).cursor.rest = c :: (ds ++ ':' :: cs) := by
    rw [← List.cons_append, ← hcs]
    exact hrest
  calc Scan.run (limit + 2) (q.scan line)
      = Scan.run (limit + 1) (q.atColon key cs line) :=
        Scan.run_fetch happroach hhead
          ((Scan.fetch?_alphanum hhead hc).trans (plainScalar?_key hkey hgap hrest line)) _
    _ = Scan.run limit (q.pastKey key cs line) :=
        Scan.run_fetch (approach?_atColon hshort hindents line) rfl (fetch?_atColon hgap line) _

/-- A key that lies deeper than the open blocks opens one. -/
theorem leads_open (column : Nat) (indents : List Nat) (ts : List Token) {rest : List Char}
    (hkey : IsWord key) (hshort : key.length ≤ 1024) (hgap : atGap cs = true)
    (hrest : rest = key ++ ':' :: cs) (hopens : indents.head?.all (· < column) = true) :
    Leads ⟨column, indents, ts, rest⟩
      ⟨column, column :: indents, ts ++ [.blockMappingStart], rest⟩ := by
  intro line limit hlimit
  have hlength := List.length_pos_iff.2 hkey.ne_nil
  obtain ⟨limit, rfl⟩ : ∃ n, limit = n + 2 := by
    refine ⟨limit - 2, ?_⟩
    simp only [hrest, List.length_append, List.length_cons] at hlimit
    omega
  refine ⟨line, limit + 2, hlimit, ?_⟩
  have hold : indents.head?.all (· ≤ column) = true := by
    cases indents with
    | nil => rfl
    | cons i is =>
        simp only [List.head?_cons, Option.all_some, decide_eq_true_eq] at hopens ⊢
        omega
  rw [run_key hkey hshort hgap hrest hold, run_key hkey hshort hgap hrest (by simp)]
  simp [pastKey, hopens]

/-- A key with words behind it, up to the first token of a line that is no deeper. -/
theorem leads_field {column : Nat} (indents : List Nat) (ts : List Token) {value : List Char}
    {words : List (List Char)} (hkey : IsWord key) (hshort : key.length ≤ 1024)
    (hvalue : IsWords value words) (hstart : IsStart tail) (hn : n ≤ column) :
    Leads ⟨column, column :: indents, ts,
        key ++ ':' :: ' ' :: (value ++ '\n' :: (List.replicate n ' ' ++ tail))⟩
      ⟨n, column :: indents, ts ++
        [.key, .scalar (.ofList key) .plain, .value, .scalar (.ofList value) .plain], tail⟩ := by
  intro line limit hlimit
  simp only [List.length_append, List.length_cons] at hlimit
  have hlength := List.length_pos_iff.2 (hvalue.ne_nil)
  obtain ⟨limit, rfl⟩ : ∃ n, limit = n + 1 + 2 := ⟨limit - 3, by omega⟩
  refine ⟨line + 1, limit, by simp only; omega, ?_⟩
  rw [run_key hkey hshort rfl rfl (by simp)]
  generalize htext : value ++ '\n' :: (List.replicate n ' ' ++ tail) = text at *
  obtain ⟨c, cs, hcs, hc⟩ := hvalue.exists_head
  have hword : IsStart text := by
    rw [← htext, hvalue.text_eq]
    exact isStart_join words hvalue.ne_nil hvalue.word _
  have hgap := skipGap_spaces false false
    ⟨line, column + key.length + 1, column + key.length + 1⟩ 1 text
  rw [hword.skipGap] at hgap
  have hdeeper : column <
      (Place.plus ⟨line, column + key.length + 1, column + key.length + 1⟩ 1).column := by
    simp only [Place.plus]
    omega
  have happroach := Scan.approach?_eq (k := none) (s := pastKey ⟨column, column :: indents, ts,
    key ++ ':' :: ' ' :: text⟩ key (' ' :: text) line) rfl hgap rfl
  rw [Scan.unindent_of_keep] at happroach
  have hhead : text = c :: (cs ++ '\n' :: (List.replicate n ' ' ++ tail)) := by
    rw [← htext, hcs, List.cons_append]
  rw [Scan.run_fetch happroach hhead ((Scan.fetch?_alphanum hhead hc).trans
    (Scan.plainScalar?_words hvalue indents rfl rfl (by simp [pastKey]) htext.symm
      hstart hdeeper hn))]
  · simp [pastKey, scan, Place.plus]
  · simp only [pastKey, List.head?_cons, Option.all_some, Nat.lt_irrefl, decide_false,
      Bool.false_eq_true, if_false]
    exact decide_eq_true (Nat.le_of_lt hdeeper)

/-- A key with a collection below it. -/
theorem leads_header (column n : Nat) (indents : List Nat) (ts : List Token) (hkey : IsWord key)
    (hshort : key.length ≤ 1024) (hstart : IsStart tail) :
    Leads ⟨column, column :: indents, ts, key ++ ':' :: '\n' :: (List.replicate n ' ' ++ tail)⟩
      ⟨n, column :: indents, ts ++ [.key, .scalar (.ofList key) .plain, .value], tail⟩ := by
  intro line limit hlimit
  simp only [List.length_append, List.length_cons] at hlimit
  obtain ⟨limit, rfl⟩ : ∃ n, limit = n + 2 := ⟨limit - 2, by omega⟩
  refine ⟨line + 1, limit, by simp only; omega, ?_⟩
  rw [run_key hkey hshort rfl rfl (by simp)]
  apply Scan.run_eq_of_approach
  rw [approach?_scan hstart, Scan.approach?_eq (k := none) rfl (skipGap_break hstart _ _ n) rfl]
  simp [pastKey, scan, Place.nextLine, Place.plus]

theorem run_end {column line limit : Nat} :
    Scan.run (limit + 1) (scan ⟨column, indents, ts, []⟩ line) =
      some (ts ++ List.replicate indents.length .blockEnd) := by
  have hclosed := Scan.closeBlocks_closeBlocks (· ≤ column) indents ts.reverse
  rw [Scan.run, approach?_scan (by simp [IsStart])]
  simp [Scan.unindent, Scan.inFlow, scan, Scan.finish?, Scan.dropKey?, hclosed]

end Spot

/-! ## The tokens of a text -/

theorem unifyBreaks_eq (h : ∀ c ∈ cs, c ≠ '\r' ∧ c ≠ '\x85') : unifyBreaks cs = cs := by
  fun_induction unifyBreaks cs with
  | case1 => rfl
  | case2 cs ih => exact absurd rfl (h '\r' List.mem_cons_self).1
  | case3 c cs _ ih =>
      obtain ⟨hc, hcs⟩ := List.forall_mem_cons.1 h
      rw [if_neg (not_or.2 hc), ih hcs]

def isBlockChar (c : Char) : Bool := c.isAlphanum || [':', ' ', '-', '\n'].contains c

theorem isAllowed_of_isBlockChar (h : isBlockChar c = true) :
    isAllowed c = true ∧ c ≠ '\r' ∧ c ≠ '\x85' := by
  rcases Bool.or_eq_true_iff.1 h with hc | hc
  · have hn := Text.toNat_of_isAlphanum hc
    refine ⟨?_, Text.ne_of_isAlphanum hc (by decide), Text.ne_of_isAlphanum hc (by decide)⟩
    have hlow : 0x20 ≤ c.toNat ∧ c.toNat ≤ 0x7E := by omega
    simp [isAllowed, hlow]
  · simp only [List.contains_iff_mem, List.mem_cons, List.not_mem_nil, or_false] at hc
    rcases hc with rfl | rfl | rfl | rfl <;> decide

theorem tokens?_of_leads {text : List Char} {indents : List Nat} {ts : List Token}
    (htext : ∀ c ∈ text, isBlockChar c = true)
    (h : Spot.Leads ⟨0, [], [], text⟩ ⟨column, indents, ts, []⟩) :
    tokens? (.ofList text) = some (ts ++ List.replicate indents.length .blockEnd) := by
  have hchars := fun c hc => isAllowed_of_isBlockChar (htext c hc)
  obtain ⟨line, limit, hlimit, heq⟩ := h 0 (text.length + 1) (Nat.lt_succ_self _)
  obtain ⟨limit, rfl⟩ := Nat.exists_eq_succ_of_ne_zero (Nat.ne_zero_of_lt hlimit)
  have hall : text.all isAllowed = true := List.all_eq_true.2 fun c hc => (hchars c hc).1
  rw [tokens?, String.toList_ofList, if_pos hall, unifyBreaks_eq fun c hc => (hchars c hc).2]
  exact heq.trans Spot.run_end

end Throttle.Yaml
