import Mathlib.Data.List.DropRight
import Throttle.Proofs.AddressGrammar
import Throttle.Request

/-!
# The address that a request is counted under

Each source of an address is described by itself, as a relation: the first value of a header, the
text between blanks, the first entry of a list, the first peer that is present.  The keys are then
the addresses that these relations single out, and `0.0.0.0` where there is none.  The text of an
IPv4 peer is read back as the peer, and that of an IPv6 peer holds a colon and so denotes nothing.
-/

namespace Throttle

/-! ## Text between blanks -/

namespace Text

variable {cs core core' front back : List Char}

/-- `core` is `cs` without the blanks around it. -/
structure Trims (cs core : List Char) : Prop where
  around : ∃ front back, cs = front ++ core ++ back ∧ (∀ c ∈ front, isBlank c = true) ∧
    ∀ c ∈ back, isBlank c = true
  head : ∀ c, core.head? = some c → isBlank c = false
  last : ∀ c, core.getLast? = some c → isBlank c = false

theorem trims_trim (cs : List Char) : Trims cs (trimEnd (trimStart cs)) := by
  have hend : trimEnd (trimStart cs) = (trimStart cs).rdropWhile isBlank := rfl
  rw [hend]
  refine ⟨⟨cs.takeWhile isBlank, (trimStart cs).rtakeWhile isBlank, ?_, ?_, ?_⟩, ?_, ?_⟩
  · rw [List.append_assoc, List.rdropWhile_append_rtakeWhile, trimStart,
      List.takeWhile_append_dropWhile]
  · exact fun c => List.mem_takeWhile_imp
  · exact fun c => List.mem_rtakeWhile_imp
  · intro c hc
    have hhead := List.head?_dropWhile_not isBlank cs
    obtain ⟨rest, hrest⟩ := List.rdropWhile_prefix isBlank (trimStart cs)
    have hstart : (trimStart cs).head? = some c := by
      rw [← hrest, List.head?_append, hc]
      rfl
    rw [← trimStart, hstart] at hhead
    exact hhead
  · intro c hc
    obtain ⟨init, hinit⟩ := List.getLast?_eq_some_iff.1 hc
    have hlast := List.rdropWhile_last_not isBlank (trimStart cs) (by simp [hinit])
    simpa [hinit] using hlast

theorem dropWhile_of_head? (h : ∀ c, cs.head? = some c → isBlank c = false) :
    cs.dropWhile isBlank = cs := by
  cases cs with
  | nil => rfl
  | cons c cs => simp [h c rfl]

theorem Trims.trim_eq (h : Trims cs core) : trimEnd (trimStart cs) = core := by
  obtain ⟨⟨front, back, rfl, hfront, hback⟩, hhead, hlast⟩ := h
  have hstart : trimStart (front ++ core ++ back) = trimStart (core ++ back) := by
    rw [List.append_assoc]
    exact List.dropWhile_append_of_pos hfront
  have hend : trimEnd (core ++ back) = core := by
    rw [trimEnd, List.reverse_append, List.dropWhile_append_of_pos (by simpa using hback),
      dropWhile_of_head? (by simpa using hlast), List.reverse_reverse]
  rw [hstart]
  cases core with
  | nil =>
      have hnil : trimStart back = [] := List.dropWhile_eq_nil_iff.2 hback
      simp [hnil, trimEnd]
  | cons c core =>
      have hkept : trimStart (c :: core ++ back) = c :: core ++ back :=
        dropWhile_of_head? (by simpa using hhead)
      rw [hkept, hend]

theorem Trims.eq (h : Trims cs core) (h' : Trims cs core') : core = core' :=
  h.trim_eq.symm.trans h'.trim_eq

theorem Trims.pad (h : Trims cs core) (hfront : ∀ c ∈ front, isBlank c = true)
    (hback : ∀ c ∈ back, isBlank c = true) : Trims (front ++ cs ++ back) core := by
  obtain ⟨⟨front', back', rfl, hfront', hback'⟩, hhead, hlast⟩ := h
  refine ⟨⟨front ++ front', back' ++ back, by simp, ?_, ?_⟩, hhead, hlast⟩
  · exact List.forall_mem_append.2 ⟨hfront, hfront'⟩
  · exact List.forall_mem_append.2 ⟨hback', hback⟩

theorem trim_eq_iff {s t : String} : trim s = t ↔ Trims s.toList t.toList := by
  constructor
  · rintro rfl
    rw [trim, String.toList_ofList]
    exact trims_trim s.toList
  · intro h
    rw [trim, h.trim_eq, String.ofList_toList]

theorem exists_fields_eq (sep : Char) (cs : List Char) :
    ∃ rest, fields sep cs = cs.takeWhile (· ≠ sep) :: rest := by
  induction cs with
  | nil => exact ⟨[], rfl⟩
  | cons c cs ih =>
      obtain ⟨rest, hrest⟩ := ih
      by_cases hc : c = sep
      · subst hc
        exact ⟨fields c cs, by simp [fields_cons_sep]⟩
      · exact ⟨rest, by simp [fields_cons_of_ne hc hrest, hc]⟩

/-- Blanks around a list are around its first entry too, or behind a separator. -/
theorem Trims.takeWhile_ne {sep : Char} (hsep : isBlank sep = false) (h : Trims cs core)
    (hentry : Trims (core.takeWhile (· ≠ sep)) core') : Trims (cs.takeWhile (· ≠ sep)) core' := by
  obtain ⟨⟨front, back, rfl, hfront, hback⟩, -, -⟩ := h
  have hne : ∀ c, isBlank c = true → decide (c ≠ sep) = true := by
    intro c hc
    simp only [decide_eq_true_eq]
    rintro rfl
    simp [hsep] at hc
  rw [List.append_assoc, List.takeWhile_append_of_pos fun c hc => hne c (hfront c hc),
    List.takeWhile_append]
  split
  next hlength =>
    have hcore : core.takeWhile (· ≠ sep) = core :=
      (List.takeWhile_prefix _).eq_of_length hlength
    have hall : back.takeWhile (· ≠ sep) = back :=
      List.takeWhile_eq_self_iff.2 fun c hc => hne c (hback c hc)
    rw [hall, ← List.append_assoc]
    exact (hcore ▸ hentry).pad hfront hback
  next =>
    have hpad : Trims (front ++ core.takeWhile (· ≠ sep) ++ []) core' :=
      hentry.pad hfront (by simp)
    rwa [List.append_nil] at hpad

end Text

/-! ## Addresses of requests -/

namespace Address

variable {ip : Ip} {a b : V4}

/-- The IPv4 address that an address is, or that it maps. -/
inductive Ip.Embeds : Ip → V4 → Prop where
  | v4 (a : V4) : Embeds (.v4 a) a
  | mapped {a : V6} {b : V4} {high low : UInt16} :
      a.groups.toList = [0, 0, 0, 0, 0, 0xFFFF, high, low] →
      b.bits.toNat = high.toNat * 65536 + low.toNat → Embeds (.v6 a) b

theorem V6.mapped?_eq_some_iff {a : V6} : a.mapped? = some b ↔ Ip.Embeds (.v6 a) b := by
  constructor
  · intro h
    unfold mapped? at h
    split at h
    next high low hgroups =>
      cases h
      have hhigh := high.toNat_lt
      have hlow := low.toNat_lt
      refine .mapped hgroups ?_
      rw [UInt32.toNat_ofNat']
      omega
    next => contradiction
  · intro h
    cases h with
    | mapped hgroups hbits =>
        obtain ⟨bits⟩ := b
        simp [mapped?, hgroups, ← hbits]

theorem V6.colon_mem_toText (a : V6) : ':' ∈ a.toText.toList := by
  unfold toText
  split
  · simp
  · -- Eight groups stand between colons, unless a run of zeros leaves two colons in its place.
    have hlength : a.groups.toList.length = 8 := by simp
    generalize a.groups.toList = groups at hlength
    obtain ⟨g, g', rest, rfl⟩ : ∃ g g' rest, groups = g :: g' :: rest := by
      match groups, hlength with
      | g :: g' :: rest, _ => exact ⟨g, g', rest, rfl⟩
    simp only
    split <;> simp [groupText, Text.join]

theorem Ip.denotes_canonical_iff : V4.Denotes ip.canonical.toText a ↔ ip.Embeds a := by
  cases ip with
  | v4 b =>
      constructor
      · intro h
        obtain rfl := h.eq (V4.denotes_toText b)
        exact .v4 a
      · rintro ⟨⟩
        exact V4.denotes_toText a
  | v6 c =>
      rw [← V6.mapped?_eq_some_iff]
      cases hmapped : c.mapped? with
      | some b =>
          simp only [canonical, hmapped, toText, Option.some.injEq]
          constructor
          · exact fun h => (V4.denotes_toText b).eq h
          · rintro rfl
            exact V4.denotes_toText b
      | none =>
          simp only [canonical, hmapped, toText, reduceCtorEq, iff_false]
          intro h
          have hparse := h.parse_eq
          rw [V4.parse_of_colon c.colon_mem_toText] at hparse
          contradiction

end Address

namespace Request

variable {r : Request} {name value text : String}

/-- The value of the first header under a name, in whatever case the name is written. -/
def FirstValue (r : Request) (name value : String) : Prop :=
  ∃ before written after, r.headers = before ++ (written, value) :: after ∧
    written.toLower = name ∧ ∀ header ∈ before, header.1.toLower ≠ name

theorem header?_eq_some_iff (hname : name.toLower = name) :
    r.header? name = some value ↔ r.FirstValue name value := by
  simp only [header?, hname, Option.map_eq_some_iff, List.find?_eq_some_iff_append, FirstValue]
  constructor
  · rintro ⟨⟨written, _⟩, ⟨hwritten, before, after, hheaders, hbefore⟩, rfl⟩
    exact ⟨before, written, after, hheaders, by simpa using hwritten, by simpa using hbefore⟩
  · rintro ⟨before, written, after, hheaders, hwritten, hbefore⟩
    exact ⟨_, ⟨by simpa using hwritten, before, after, hheaders, by simpa using hbefore⟩, rfl⟩

theorem nonEmpty_eq_some_iff {s t : String} : nonEmpty s = some t ↔ s = t ∧ t ≠ "" := by
  unfold nonEmpty
  split
  next hempty =>
    have hs : s = "" := String.isEmpty_iff.1 hempty
    simp [hs, eq_comm]
  next hne =>
    have hs : s ≠ "" := mt String.isEmpty_iff.2 hne
    constructor
    · rintro ⟨rfl⟩
      exact ⟨rfl, hs⟩
    · rintro ⟨rfl, -⟩
      rfl

/-- The text between the blanks of the first value under a name, if there is any. -/
def HeaderText (r : Request) (name text : String) : Prop :=
  ∃ value, r.FirstValue name value ∧ isReadable value = true ∧
    Text.Trims value.toList text.toList ∧ text ≠ ""

/-- The text between the blanks of the first entry in the list of forwarding addresses. -/
def FirstEntry (r : Request) (text : String) : Prop :=
  ∃ value, r.FirstValue "x-forwarded-for" value ∧ isReadable value = true ∧
    Text.Trims (value.toList.takeWhile (· ≠ ',')) text.toList ∧ text ≠ ""

theorem headerText?_eq_some_iff (hname : name.toLower = name) :
    r.headerText? name = some text ↔ r.HeaderText name text := by
  simp only [headerText?, readable?, Option.bind_eq_bind, Option.bind_eq_some_iff,
    Option.filter_eq_some_iff, header?_eq_some_iff hname, nonEmpty_eq_some_iff, Text.trim_eq_iff,
    HeaderText, and_assoc]

theorem forwardedFor?_eq (r : Request) : r.forwardedFor? =
    (r.headerText? "x-forwarded-for").bind fun value =>
      nonEmpty (Text.trim (.ofList (value.toList.takeWhile (· ≠ ',')))) := by
  unfold forwardedFor?
  refine congrArg _ (funext fun value => ?_)
  obtain ⟨rest, hfields⟩ := Text.exists_fields_eq ',' value.toList
  simp only [hfields]

theorem forwardedFor?_eq_some_iff : r.forwardedFor? = some text ↔ r.FirstEntry text := by
  have hname : "x-forwarded-for".toLower = "x-forwarded-for" := by decide +kernel
  have hcomma : Text.isBlank ',' = false := by decide
  simp only [forwardedFor?_eq, Option.bind_eq_some_iff, headerText?_eq_some_iff hname,
    nonEmpty_eq_some_iff, Text.trim_eq_iff, String.toList_ofList]
  constructor
  · rintro ⟨core, ⟨value, hfirst, hreadable, hcore, -⟩, hentry, hne⟩
    exact ⟨value, hfirst, hreadable, hcore.takeWhile_ne hcomma hentry, hne⟩
  · rintro ⟨value, hfirst, hreadable, hentry, hne⟩
    -- Trimming the value first leaves the same between the blanks of its first entry.
    have hcore := Text.trims_trim value.toList
    generalize Text.trimEnd (Text.trimStart value.toList) = core at hcore
    have hentry' := Text.trims_trim (core.takeWhile (· ≠ ','))
    rw [(hcore.takeWhile_ne hcomma hentry').eq hentry] at hentry'
    refine ⟨.ofList core, ⟨value, hfirst, hreadable, by simpa using hcore, ?_⟩, ?_, hne⟩
    · intro hnil
      obtain rfl : core = [] := by simpa using hnil
      have htext : [] = text.toList := hentry'.trim_eq
      exact hne (String.toList_eq_nil_iff.1 htext.symm)
    · simpa using hentry'

/-- The first peer that is present. -/
inductive Peer (r : Request) : Address.Ip → Prop where
  | connection {socket : Address.Socket} : r.connection = some socket → Peer r socket.ip
  | socket {socket : Address.Socket} :
      r.connection = none → r.peer = some socket → Peer r socket.ip
  | bare {ip : Address.Ip} :
      r.connection = none → r.peer = none → r.peerIp = some ip → Peer r ip

theorem peerAddress?_eq_some_iff {ip : Address.Ip} : r.peerAddress? = some ip ↔ r.Peer ip := by
  simp only [peerAddress?, Option.orElse_eq_some, Option.map_eq_some_iff, Option.map_eq_none_iff]
  constructor
  · rintro (⟨socket, hsocket, rfl⟩ | ⟨hnone, ⟨socket, hsocket, rfl⟩ | ⟨hnone', hip⟩⟩)
    · exact .connection hsocket
    · exact .socket hnone hsocket
    · exact .bare hnone hnone' hip
  · intro h
    cases h with
    | connection hsocket => exact .inl ⟨_, hsocket, rfl⟩
    | socket hnone hsocket => exact .inr ⟨hnone, .inl ⟨_, hsocket, rfl⟩⟩
    | bare hnone hnone' hip => exact .inr ⟨hnone, .inr ⟨hnone', hip⟩⟩

/-- The text of the client's address, from the first source that gives one. -/
inductive ClientText (r : Request) : String → Prop where
  | forwarded {text : String} : r.FirstEntry text → ClientText r text
  | real {text : String} : (¬ ∃ t, r.FirstEntry t) → r.HeaderText "x-real-ip" text →
      ClientText r text
  | peer {ip : Address.Ip} : (¬ ∃ t, r.FirstEntry t) → (¬ ∃ t, r.HeaderText "x-real-ip" t) →
      r.Peer ip → ClientText r ip.canonical.toText

theorem clientText?_eq_some_iff : r.clientText? = some text ↔ r.ClientText text := by
  have hname : "x-real-ip".toLower = "x-real-ip" := by decide +kernel
  simp only [clientText?, Option.orElse_eq_some, Option.eq_none_iff_forall_ne_some, ne_eq,
    forwardedFor?_eq_some_iff, headerText?_eq_some_iff hname, peerText?, Option.map_eq_some_iff,
    peerAddress?_eq_some_iff, ← not_exists]
  constructor
  · rintro (h | ⟨hnone, h | ⟨hnone', ip, hpeer, rfl⟩⟩)
    · exact .forwarded h
    · exact .real hnone h
    · exact .peer hnone hnone' hpeer
  · intro h
    cases h with
    | forwarded h => exact .inl h
    | real hnone h => exact .inr ⟨hnone, .inl h⟩
    | peer hnone hnone' hpeer => exact .inr ⟨hnone, .inr ⟨hnone', _, hpeer, rfl⟩⟩

/-! ## Keys -/

/-- The address that is singled out, or `0.0.0.0` if none is. -/
def OrUnspecified (p : Address.V4 → Prop) (a : Address.V4) : Prop :=
  p a ∨ (¬ ∃ b, p b) ∧ a = .unspecified

theorem orUnspecified_ofText (text : Option String) :
    OrUnspecified (fun a => ∃ s, text = some s ∧ Address.V4.Denotes s a)
      (.ofText (text.getD "")) := by
  cases text with
  | none => exact .inr ⟨by simp, rfl⟩
  | some s =>
      simp only [Option.some.injEq, exists_eq_left', Option.getD_some]
      by_cases h : ∃ a, Address.V4.Denotes s a
      · obtain ⟨a, ha⟩ := h
        rw [Address.V4.ofText_of_denotes ha]
        exact .inl ha
      · exact .inr ⟨h, Address.V4.ofText_of_not_denotes h⟩

theorem peerText_denotes_iff {a : Address.V4} :
    (∃ s, r.peerText? = some s ∧ Address.V4.Denotes s a) ↔ ∃ ip, r.Peer ip ∧ ip.Embeds a := by
  simp only [peerText?, Option.map_eq_some_iff, peerAddress?_eq_some_iff]
  constructor
  · rintro ⟨_, ⟨ip, hpeer, rfl⟩, hdenotes⟩
    exact ⟨ip, hpeer, Address.Ip.denotes_canonical_iff.1 hdenotes⟩
  · rintro ⟨ip, hpeer, hembeds⟩
    exact ⟨_, ⟨ip, hpeer, rfl⟩, Address.Ip.denotes_canonical_iff.2 hembeds⟩

theorem clientText_denotes_iff {a : Address.V4} :
    (∃ s, r.clientText? = some s ∧ Address.V4.Denotes s a) ↔
      ∃ s, r.ClientText s ∧ Address.V4.Denotes s a := by
  simp only [clientText?_eq_some_iff]

/-- Requests that come from the same peer. -/
structure SamePeer (r r' : Request) : Prop where
  connection : r'.connection = r.connection
  socket : r'.peer = r.peer
  bare : r'.peerIp = r.peerIp

variable {r' : Request}

theorem SamePeer.peerText?_eq (h : r.SamePeer r') : r'.peerText? = r.peerText? := by
  rw [peerText?, peerText?, peerAddress?, peerAddress?, h.connection, h.socket, h.bare]

theorem header?_eq_of_firstValue (hname : name.toLower = name)
    (h : ∀ value, r'.FirstValue name value ↔ r.FirstValue name value) :
    r'.header? name = r.header? name := by
  apply Option.ext
  intro value
  rw [header?_eq_some_iff hname, header?_eq_some_iff hname, h]

theorem SamePeer.clientText?_eq (h : r.SamePeer r')
    (hforwarded : r'.header? "x-forwarded-for" = r.header? "x-forwarded-for")
    (hreal : r'.header? "x-real-ip" = r.header? "x-real-ip") :
    r'.clientText? = r.clientText? := by
  simp only [clientText?, forwardedFor?, headerText?, readable?, hforwarded, hreal,
    h.peerText?_eq]

/--
A request is counted under an address.  For a client it is the one that the first text of its chain
denotes, for a peer the IPv4 address that the first peer present is or maps, and `0.0.0.0` where
there is none.  The headers have no say in the key of a peer, and only the first values of the two
forwarding headers have one in the key of a client.
-/
theorem keys_of_request (r : Request) :
    (∃ a, Extractor.client.key? r = some (.ip a) ∧
      OrUnspecified (fun a => ∃ s, r.ClientText s ∧ Address.V4.Denotes s a) a) ∧
    (∃ a, Extractor.peer.key? r = some (.ip a) ∧
      OrUnspecified (fun a => ∃ ip, r.Peer ip ∧ ip.Embeds a) a) ∧
    ∀ r', r.SamePeer r' →
      Extractor.peer.key? r' = Extractor.peer.key? r ∧
      ((∀ name ∈ ["x-forwarded-for", "x-real-ip"], ∀ value,
          r'.FirstValue name value ↔ r.FirstValue name value) →
        Extractor.client.key? r' = Extractor.client.key? r) := by
  refine ⟨⟨_, rfl, ?_⟩, ⟨_, rfl, ?_⟩, ?_⟩
  · have hclient := orUnspecified_ofText r.clientText?
    simpa only [clientText_denotes_iff] using hclient
  · have hpeer := orUnspecified_ofText r.peerText?
    simpa only [peerText_denotes_iff] using hpeer
  · intro r' hsame
    constructor
    · simp only [Extractor.key?, hsame.peerText?_eq]
    · intro hvalues
      rw [List.forall_mem_cons, List.forall_mem_singleton] at hvalues
      have hforwarded := header?_eq_of_firstValue (by decide +kernel) hvalues.1
      have hreal := header?_eq_of_firstValue (by decide +kernel) hvalues.2
      simp only [Extractor.key?, hsame.clientText?_eq hforwarded hreal]

theorem toLower_eq_map (s : String) : s.toLower = s.map Char.toLower := rfl

/-- One mapped peer writes its headers in another case and adds an entry behind the first. -/
theorem keys_of_mapped_peer :
    let peer : Address.Ip := .v6 ⟨#v[0, 0, 0, 0, 0, 0xFFFF, 0xCB00, 0x7107]⟩
    let r : Request := ⟨[("Accept", "a"), ("X-Forwarded-For", " 198.051.100.1 , 10.0.0.1")],
      none, some ⟨peer, 80⟩, none⟩
    let r' : Request := ⟨[("x-forwarded-FOR", " 198.051.100.1 , 10.0.0.1"),
      ("X-Forwarded-For", "192.0.2.1")], none, some ⟨peer, 80⟩, none⟩
    r.SamePeer r' ∧ Extractor.client.key? r = some (.ip ⟨0xC6336401⟩) ∧
      Extractor.client.key? r' = Extractor.client.key? r ∧
      Extractor.peer.key? r' = Extractor.peer.key? r ∧
      Extractor.peer.key? r = some (.ip ⟨0xCB007107⟩) := by
  intro peer r r'
  have hsame : r.SamePeer r' := ⟨rfl, rfl, rfl⟩
  obtain ⟨hpeer, hclient⟩ := (keys_of_request r).2.2 r' hsame
  have hforwarded : r.header? "x-forwarded-for" = some " 198.051.100.1 , 10.0.0.1" := by
    simp [r, header?, toLower_eq_map, ← String.toList_inj]
  have hforwarded' : r'.header? "x-forwarded-for" = some " 198.051.100.1 , 10.0.0.1" := by
    simp [r', header?, toLower_eq_map, ← String.toList_inj]
  have hreal : r.header? "x-real-ip" = none := by
    simp [r, header?, toLower_eq_map, ← String.toList_inj]
  have hreal' : r'.header? "x-real-ip" = none := by
    simp [r', header?, toLower_eq_map, ← String.toList_inj]
  have hentry : r.forwardedFor? = some "198.051.100.1" := by
    simp only [forwardedFor?, headerText?, readable?, hforwarded]
    decide +kernel
  have haddress : Address.V4.ofText "198.051.100.1" = ⟨0xC6336401⟩ := by decide +kernel
  refine ⟨hsame, ?_, hclient ?_, hpeer, by decide +kernel⟩
  · simp [Extractor.key?, clientText?, hentry, addressKey, haddress]
  · rw [List.forall_mem_cons, List.forall_mem_singleton]
    constructor
    · intro value
      rw [← header?_eq_some_iff (by decide +kernel), ← header?_eq_some_iff (by decide +kernel),
        hforwarded, hforwarded']
    · intro value
      rw [← header?_eq_some_iff (by decide +kernel), ← header?_eq_some_iff (by decide +kernel),
        hreal, hreal']

end Request

end Throttle
