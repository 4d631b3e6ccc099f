import Throttle.Yaml.Node

/-!
# Nodes of block collections

The tokens of a block mapping and of a sequence in the column of the mapping around it are read back
as these collections.  A mapping ends with a token of its own; such a sequence ends where no other
entry follows, so what comes behind a value must not be an entry.
-/

namespace Throttle.Yaml.Builder

variable {b : Builder} {ts vs rest : List Token} {es : List (Node × Node)} {items : List Node}
  {indentless : Bool} {limit : Nat} {v : Node} {name : String}

/-- The tokens are those of a node that stands as a value. -/
def Reads (ts : List Token) (n : Node) : Prop :=
  ∀ (b : Builder) (limit : Nat) (rest : List Token), b.tokens = ts ++ rest →
    rest.head? ≠ some .blockEntry → 4 * ts.length + 3 ≤ limit →
    b.node? true true limit = some (n, { b with tokens := rest })

/-- The tokens are those of the entries of a block mapping, up to its end. -/
def ReadsEntries (ts : List Token) (es : List (Node × Node)) : Prop :=
  ∀ (b : Builder) (limit : Nat) (rest : List Token), b.tokens = ts ++ .blockEnd :: rest →
    4 * ts.length + 4 ≤ limit → b.blockEntries? limit = some (es, { b with tokens := rest })

/-- The tokens are those of the items of a sequence, if no other item follows. -/
def ReadsItems (ts : List Token) (items : List Node) : Prop :=
  ∀ (b : Builder) (limit : Nat) (rest : List Token), b.tokens = ts ++ rest →
    rest.head? ≠ some .blockEntry → 4 * ts.length + 1 ≤ limit →
    b.indentlessItems? limit = some (items, { b with tokens := rest })

theorem node?_scalar (hb : b.tokens = .scalar name .plain :: rest) (hlimit : 2 ≤ limit) :
    b.node? true indentless limit = some (.scalar name .plain none, { b with tokens := rest }) := by
  obtain ⟨limit, rfl⟩ : ∃ n, limit = n + 2 := ⟨limit - 2, by omega⟩
  simp [node?, content?, properties, resolveTag?, hb, drop]

theorem reads_scalar (name : String) :
    Reads [.scalar name .plain] (.scalar name .plain none) :=
  fun _ _ _ hb _ hlimit => node?_scalar hb (by omega)

theorem node?_mapping (h : ReadsEntries ts es)
    (hb : b.tokens = .blockMappingStart :: (ts ++ .blockEnd :: rest))
    (hlimit : 4 * ts.length + 6 ≤ limit) :
    b.node? true indentless limit = some (.mapping es, { b with tokens := rest }) := by
  obtain ⟨limit, rfl⟩ : ∃ n, limit = n + 2 := ⟨limit - 2, by omega⟩
  have hentries := h b.drop limit rest (by simp [drop, hb]) (by omega)
  simp only [drop, hb, List.tail_cons] at hentries
  simp [node?, content?, properties, resolveTag?, hb, hentries, drop]

theorem ReadsEntries.reads (h : ReadsEntries ts es) :
    Reads (.blockMappingStart :: (ts ++ [.blockEnd])) (.mapping es) := by
  intro b limit rest hb _ hlimit
  simp only [List.length_cons, List.length_append, List.length_nil] at hlimit
  exact node?_mapping h (by simpa using hb) (by omega)

theorem readsEntries_nil : ReadsEntries [] [] := by
  intro b limit rest hb hlimit
  obtain ⟨limit, rfl⟩ : ∃ n, limit = n + 1 := ⟨limit - 1, by omega⟩
  simp [blockEntries?, next?, drop, hb]

/-- A value does not start with what could stand for a blank one. -/
def StartsNode (ts : List Token) : Prop :=
  ∃ t us, ts = t :: us ∧ t ∉ [Token.key, .value, .blockEnd]

theorem ReadsEntries.cons (h : ReadsEntries ts es) (name : String) (hv : Reads vs v)
    (hvs : StartsNode vs) (hts : ts.head? ≠ some .blockEntry) :
    ReadsEntries (.key :: .scalar name .plain :: .value :: (vs ++ ts))
      ((.scalar name .plain none, v) :: es) := by
  intro b limit rest hb hlimit
  simp only [List.length_cons, List.length_append] at hlimit
  obtain ⟨limit, rfl⟩ : ∃ n, limit = n + 1 := ⟨limit - 1, by omega⟩
  have hfollow : (ts ++ .blockEnd :: rest).head? ≠ some .blockEntry := by
    cases ts with
    | nil => simp
    | cons t ts => exact hts
  have hkey : ∀ us, node? true true limit { b with tokens := .scalar name .plain :: us } =
      some (.scalar name .plain none, { b with tokens := us }) :=
    fun us => node?_scalar rfl (by omega)
  have hvalue := hv { b with tokens := vs ++ (ts ++ .blockEnd :: rest) } limit _ rfl hfollow
    (by omega)
  have hrest := h { b with tokens := ts ++ .blockEnd :: rest } limit rest rfl (by omega)
  obtain ⟨t, us, rfl, ht⟩ := hvs
  simp only [List.mem_cons, List.not_mem_nil, or_false, not_or] at ht
  simp only [List.cons_append] at hvalue
  simp [blockEntries?, next?, drop, hb, blankBefore, nextIsOneOf, hkey, ht, hvalue, hrest]

theorem readsItems_nil : ReadsItems [] [] := by
  intro b limit rest hb hrest hlimit
  obtain ⟨limit, rfl⟩ : ∃ n, limit = n + 1 := ⟨limit - 1, by omega⟩
  have hnext : b.next? ≠ some .blockEntry := by
    rw [next?, hb]
    exact hrest
  rw [List.nil_append] at hb
  rw [indentlessItems?, ← hb]
  split
  next heq => exact absurd heq hnext
  next => rfl

theorem ReadsItems.cons {us : List Token} (hes : ReadsEntries us es) (h : ReadsItems ts items) :
    ReadsItems (.blockEntry :: .blockMappingStart :: (us ++ .blockEnd :: ts))
      (.mapping es :: items) := by
  intro b limit rest hb hrest hlimit
  simp only [List.length_cons, List.length_append] at hlimit
  obtain ⟨limit, rfl⟩ : ∃ n, limit = n + 1 := ⟨limit - 1, by omega⟩
  have hitem : node? true false limit
      { b with tokens := .blockMappingStart :: (us ++ .blockEnd :: (ts ++ rest)) } =
      some (.mapping es, { b with tokens := ts ++ rest }) :=
    node?_mapping hes rfl (by omega)
  have hitems := h { b with tokens := ts ++ rest } limit rest rfl hrest (by omega)
  simp [indentlessItems?, next?, drop, hb, blankBefore, nextIsOneOf, hitem, hitems]

theorem ReadsItems.reads (h : ReadsItems (.blockEntry :: ts) items) :
    Reads (.blockEntry :: ts) (.sequence items) := by
  intro b limit rest hb hrest hlimit
  obtain ⟨limit, rfl⟩ : ∃ n, limit = n + 2 := ⟨limit - 2, by omega⟩
  have hitems := h b limit rest hb hrest (by omega)
  simp [node?, content?, properties, resolveTag?, hb, hitems]

/-- A block mapping is a whole document. -/
theorem ofTokens?_mapping (h : ReadsEntries ts es) :
    Document.ofTokens? (.blockMappingStart :: (ts ++ [.blockEnd])) = some ⟨.mapping es, []⟩ := by
  have hroot : node? true false (4 * (ts.length + 2) + 4)
      ⟨.blockMappingStart :: (ts ++ [.blockEnd]), standardHandles, [], 0, []⟩ =
      some (.mapping es, ⟨[], standardHandles, [], 0, []⟩) :=
    node?_mapping h rfl (by omega)
  simp [Document.ofTokens?, directives?, Document.body?, Document.close?, hroot]

end Throttle.Yaml.Builder
