import ScanPlatform.Base.UrlSplit
import ScanPlatform.Nuclei.HostLocation

/-!
# URLs, normalized again

A normalized URL is split into the parts that it was made from. A second pass finds the escapes in
lower case and the path in place; but if the port was left out, the host may end in another one.

* `lowercasePercentEscapes_idem`: escapes;
* `DropsPort`, `KeepsPort`, **`normalizeAuthority_again`**: network locations;
* `StripsAgain`, **`url_again`**: URLs.
-/

set_option autoImplicit false

namespace ScanPlatform

open PyStr UrlSplit

/-! ## Escapes -/

section

theorem isHex_iff {c : Char} : isHex c = true ↔ 48 ≤ c.toNat ∧ c.toNat ≤ 57 ∨
    97 ≤ c.toNat ∧ c.toNat ≤ 102 ∨ 65 ≤ c.toNat ∧ c.toNat ≤ 70 := by
  have hle : ∀ d e : Char, d ≤ e ↔ d.toNat ≤ e.toNat := fun d e => UInt32.le_iff_toNat_le
  unfold isHex hexDigit
  simp only [hle]
  change _ ↔ '0'.toNat ≤ _ ∧ _ ≤ '9'.toNat ∨ 'a'.toNat ≤ _ ∧ _ ≤ 'f'.toNat ∨
    'A'.toNat ≤ _ ∧ _ ≤ 'F'.toNat
  split_ifs with h09 haf hAF
  · exact iff_of_true rfl (.inl h09)
  · exact iff_of_true rfl (.inr (.inl haf))
  · exact iff_of_true rfl (.inr (.inr hAF))
  · refine iff_of_false (by simp) ?_
    rintro (h | h | h)
    · exact h09 h
    · exact haf h
    · exact hAF h

theorem isHex_toLower {c : Char} (h : isHex c = true) : isHex c.toLower = true := by
  have hlower := toNat_toLower c
  rw [isHex_iff] at h ⊢
  split_ifs at hlower with hupper
  · omega
  · omega

/-- Two hexadecimal digits come first. -/
def Escapes (s : List Char) : Prop :=
  ∃ a b rest, s = a :: b :: rest ∧ isHex a = true ∧ isHex b = true

theorem lowercasePercentEscapes_percent {s : List Char} (h : ¬ Escapes s) :
    lowercasePercentEscapes ('%' :: s) = '%' :: lowercasePercentEscapes s := by
  rcases s with _ | ⟨a, _ | ⟨b, s⟩⟩
  · rfl
  · rw [lowercasePercentEscapes.eq_2]
    simp
  · rw [lowercasePercentEscapes, if_neg fun hhex => h ⟨a, b, s, rfl, hhex⟩]

theorem lowercasePercentEscapes_cons {c : Char} (h : c ≠ '%') (s : List Char) :
    lowercasePercentEscapes (c :: s) = c :: lowercasePercentEscapes s := by
  rw [lowercasePercentEscapes.eq_2]
  rintro a b cs rfl
  exact absurd rfl h

/-- The first character stays as it is. -/
theorem head?_lowercasePercentEscapes (s : List Char) :
    (lowercasePercentEscapes s).head? = s.head? := by
  rcases s with _ | ⟨c, s⟩
  · rfl
  by_cases hc : c = '%'
  · subst hc
    by_cases h : Escapes s
    · obtain ⟨a, b, rest, rfl, hhex⟩ := h
      rw [lowercasePercentEscapes, if_pos hhex]
      rfl
    · rw [lowercasePercentEscapes_percent h]
      rfl
  · rw [lowercasePercentEscapes_cons hc]
    rfl

theorem escapes_of_lowercasePercentEscapes {s : List Char}
    (h : Escapes (lowercasePercentEscapes s)) : Escapes s := by
  obtain ⟨a, b, rest, heq, ha, hb⟩ := h
  have hhead := head?_lowercasePercentEscapes s
  rw [heq] at hhead
  obtain ⟨s', rfl⟩ := List.head?_eq_some_iff.mp hhead.symm
  have hne : a ≠ '%' := by
    rintro rfl
    exact absurd ha (by decide)
  rw [lowercasePercentEscapes_cons hne] at heq
  have hnext := head?_lowercasePercentEscapes s'
  rw [(List.cons.inj heq).2] at hnext
  obtain ⟨rest', rfl⟩ := List.head?_eq_some_iff.mp hnext.symm
  exact ⟨a, b, rest', rfl, ha, hb⟩

theorem lowercasePercentEscapes_idem (s : List Char) :
    lowercasePercentEscapes (lowercasePercentEscapes s) = lowercasePercentEscapes s := by
  induction s using lowercasePercentEscapes.induct with
  | case1 a b cs hhex ih =>
    rw [lowercasePercentEscapes, if_pos hhex, lowercasePercentEscapes,
      if_pos ⟨isHex_toLower hhex.1, isHex_toLower hhex.2⟩, toLower_toLower, toLower_toLower, ih]
  | case2 a b cs hhex ih =>
    have hno : ¬ Escapes (a :: b :: cs) := by
      rintro ⟨a', b', rest, heq, h⟩
      obtain ⟨rfl, htail⟩ := List.cons.inj heq
      obtain ⟨rfl, -⟩ := List.cons.inj htail
      exact hhex h
    rw [lowercasePercentEscapes_percent hno,
      lowercasePercentEscapes_percent fun h => hno (escapes_of_lowercasePercentEscapes h), ih]
  | case3 c cs hno ih =>
    have hcons : ∀ t, ¬ Escapes t ∨ c ≠ '%' →
        lowercasePercentEscapes (c :: t) = c :: lowercasePercentEscapes t := by
      intro t ht
      by_cases hc : c = '%'
      · subst hc
        exact lowercasePercentEscapes_percent (ht.resolve_right (not_not_intro rfl))
      · exact lowercasePercentEscapes_cons hc t
    have hfirst : ¬ Escapes cs ∨ c ≠ '%' := by
      by_contra hboth
      obtain ⟨hesc, hc⟩ := not_or.mp hboth
      obtain ⟨a, b, rest, rfl, -⟩ := not_not.mp hesc
      exact hno a b rest (not_not.mp hc) rfl
    rw [hcons cs hfirst,
      hcons _ (hfirst.imp_left fun h hesc => h (escapes_of_lowercasePercentEscapes hesc)), ih]
  | case4 => rfl

/-- Lower-casing the escapes brings in no other characters than digits. -/
theorem mem_of_mem_lowercasePercentEscapes {c : Char} {s : List Char}
    (h : c ∈ lowercasePercentEscapes s) (hc : isHex c = false) : c ∈ s := by
  have hdigit : ∀ a, isHex a = true → c ≠ a.toLower := by
    rintro a ha rfl
    rw [isHex_toLower ha] at hc
    cases hc
  induction s using lowercasePercentEscapes.induct with
  | case1 a b cs hhex ih =>
    rw [lowercasePercentEscapes, if_pos hhex] at h
    simp only [List.mem_cons] at h ⊢
    rcases h with rfl | h | h | h
    · exact .inl rfl
    · exact absurd h (hdigit a hhex.1)
    · exact absurd h (hdigit b hhex.2)
    · exact .inr (.inr (.inr (ih h)))
  | case2 a b cs hhex ih =>
    rw [lowercasePercentEscapes, if_neg hhex] at h
    exact List.mem_cons.mpr ((List.mem_cons.mp h).imp_right ih)
  | case3 d cs hno ih =>
    rw [lowercasePercentEscapes.eq_2 _ _ hno] at h
    exact List.mem_cons.mpr ((List.mem_cons.mp h).imp_right ih)
  | case4 => exact h

end

/-! ## Network locations -/

section

variable {F : Type} {py : Python F}

/-- The user part, and the host and the port behind it. -/
theorem splitUserinfo_spec (netloc : List Char) :
    (splitUserinfo netloc).1 ++ (splitUserinfo netloc).2 = netloc ∧
      '@' ∉ (splitUserinfo netloc).2 ∧ ∀ hostport, '@' ∉ hostport →
        splitUserinfo ((splitUserinfo netloc).1 ++ hostport) =
          ((splitUserinfo netloc).1, hostport) := by
  have hnone : ∀ hostport, '@' ∉ hostport → splitUserinfo hostport = ([], hostport) := by
    intro hostport h
    unfold splitUserinfo
    rw [rpartition_of_not_mem h]
  have hsome : ∀ user hostport, '@' ∉ hostport →
      splitUserinfo (user ++ '@' :: hostport) = (user ++ ['@'], hostport) := by
    intro user hostport h
    unfold splitUserinfo
    rw [rpartition_append_sep h]
  rcases rpartition_cases '@' netloc with ⟨h, -⟩ | ⟨user, hostport, rfl, h, -⟩
  · rw [hnone netloc h]
    exact ⟨rfl, h, hnone⟩
  · rw [hsome user hostport h]
    refine ⟨by simp, h, fun hostport' h' => ?_⟩
    rw [List.append_assoc]
    exact hsome user hostport' h'

/-- A port is left out, kept, or no number. -/
theorem dropDefaultPort_cases (scheme port : List Char) :
    dropDefaultPort py scheme port = none ∨ dropDefaultPort py scheme port = some [] ∨
      dropDefaultPort py scheme port = some port := by
  unfold dropDefaultPort
  cases defaultPorts.lookup (String.ofList scheme) with
  | none => exact .inr (.inr rfl)
  | some default =>
    dsimp only
    split_ifs
    · cases py.intOfDigits port with
      | none => exact .inl rfl
      | some n =>
        rw [Option.map_some]
        split_ifs
        · exact .inr (.inl rfl)
        · exact .inr (.inr rfl)
    · exact .inr (.inr rfl)

theorem dropDefaultPort_nil (scheme : List Char) : dropDefaultPort py scheme [] = some [] := by
  unfold dropDefaultPort
  cases defaultPorts.lookup (String.ofList scheme) with
  | none => rfl
  | some default => rfl

/-- The port with its colon. -/
def portText (port : List Char) : List Char := if port = [] then [] else ':' :: port

/-- The network location once its host and port are known. -/
theorem normalizeAuthority_some {netloc scheme host port : List Char}
    (h : splitHostPort py (splitUserinfo netloc).2 = some (host, port)) :
    normalizeAuthority py netloc scheme = (dropDefaultPort py scheme port).map fun port =>
      (splitUserinfo netloc).1 ++ (host ++ portText port) := by
  unfold normalizeAuthority
  dsimp only
  rw [h]
  simp only [portText, List.append_assoc]

theorem normalizeAuthority_none {netloc scheme : List Char}
    (h : splitHostPort py (splitUserinfo netloc).2 = none) :
    normalizeAuthority py netloc scheme = some netloc := by
  unfold normalizeAuthority
  dsimp only
  rw [h]
  exact congrArg some (splitUserinfo_spec netloc).1

theorem splitHostPort_open {a : List Char} (h : ']' ∉ a) : splitHostPort py ('[' :: a) = none := by
  have hmem : ']' ∉ '[' :: a := by simpa using h
  unfold splitHostPort
  rw [partition_of_not_mem hmem]
  rfl

/-- What stands behind the brackets, without its colon. -/
def dropColon : List Char → List Char
  | ':' :: port => port
  | rest => rest

theorem splitHostPort_closed {a : List Char} (h : ']' ∉ a) (rest : List Char) :
    splitHostPort py ('[' :: (a ++ ']' :: rest)) =
      some (py.lower ('[' :: a ++ [']']), dropColon rest) := by
  have hmem : ']' ∉ '[' :: a := by simpa using h
  unfold splitHostPort
  rw [← List.cons_append, partition_append_sep hmem]
  rfl

theorem splitHostPort_host {hostport : List Char} (h : hostport.head? ≠ some '[')
    (hcolon : ':' ∉ hostport) : splitHostPort py hostport = some (py.lower hostport, []) := by
  unfold splitHostPort
  split
  · exact absurd rfl h
  · rw [rpartition_of_not_mem hcolon]

theorem splitHostPort_port {host port : List Char} (h : (host ++ ':' :: port).head? ≠ some '[')
    (hcolon : ':' ∉ port) :
    splitHostPort py (host ++ ':' :: port) = some (py.lower host, port) := by
  unfold splitHostPort
  split
  · next heq => exact absurd (by rw [heq]; rfl) h
  · rw [rpartition_append_sep hcolon]

/-- The host, when the port of a URL is empty or the default one and is left out. -/
def DropsPort (py : Python F) (netloc scheme host : List Char) : Prop :=
  (splitUserinfo netloc).2.head? ≠ some '[' ∧ ∃ port,
    rpartition ':' (splitUserinfo netloc).2 = (host, [':'], port) ∧
      dropDefaultPort py scheme port = some []

/-- If a host ends in a port, that is not empty, a number if it counts as one, and not the default
port of the scheme. -/
def KeepsPort (py : Python F) (scheme host : List Char) : Prop :=
  ∀ host' port, rpartition ':' host = (host', [':'], port) →
    port ≠ [] ∧ dropDefaultPort py scheme port = some port

theorem keepsPort_of_not_mem {scheme host : List Char} (h : ':' ∉ host) :
    KeepsPort py scheme host := by
  intro host' port hpart
  rw [rpartition_of_not_mem h] at hpart
  cases hpart

/-- A network location with the host and the port in their normal forms. -/
theorem normalizeAuthority_fixed {netloc scheme hostport host port : List Char}
    (hat : '@' ∉ hostport) (hsplit : splitHostPort py hostport = some (host, port))
    (hkept : dropDefaultPort py scheme port = some port)
    (hjoin : host ++ portText port = hostport) :
    normalizeAuthority py ((splitUserinfo netloc).1 ++ hostport) scheme =
      some ((splitUserinfo netloc).1 ++ hostport) := by
  have huser := (splitUserinfo_spec netloc).2.2 hostport hat
  have hsplit' : splitHostPort py
      (splitUserinfo ((splitUserinfo netloc).1 ++ hostport)).2 = some (host, port) := by
    rw [huser]
    exact hsplit
  rw [normalizeAuthority_some hsplit', hkept, Option.map_some, huser, hjoin]

theorem kept_of_dropDefaultPort {scheme port port' : List Char}
    (h : dropDefaultPort py scheme port = some port') :
    dropDefaultPort py scheme port' = some port' ∧ (port' = [] ∨ port' = port) := by
  rcases @dropDefaultPort_cases _ py scheme port with hnone | hdrop | hkeep
  · rw [hnone] at h
    cases h
  · obtain rfl := Option.some.inj (hdrop.symm.trans h)
    exact ⟨dropDefaultPort_nil scheme, .inl rfl⟩
  · obtain rfl := Option.some.inj (hkeep.symm.trans h)
    exact ⟨hkeep, .inr rfl⟩

/-- A lowered host that is a whole network location again. -/
theorem host_again (hlaw : py.Lawful) {netloc scheme host : List Char} (hat : '@' ∉ host)
    (hopen : host.head? ≠ some '[') :
    normalizeAuthority py ((splitUserinfo netloc).1 ++ py.lower host) scheme =
        some ((splitUserinfo netloc).1 ++ py.lower host) ↔
      KeepsPort py scheme (py.lower host) := by
  have hat' : '@' ∉ py.lower host := fun h => hat ((hlaw.mem_lower (by decide)).mp h)
  have hopen' : (py.lower host).head? ≠ some '[' := by
    have hhead := @head_lower _ _ hlaw _ [] (by simpa using hopen) (by simp)
    rwa [List.append_nil] at hhead
  rcases rpartition_cases ':' (py.lower host) with
    ⟨hcolon, hpart⟩ | ⟨host', port, heq, hport, hpart⟩
  · refine iff_of_true (normalizeAuthority_fixed hat' (splitHostPort_host hopen' hcolon)
      (dropDefaultPort_nil scheme) ?_) (keepsPort_of_not_mem hcolon)
    rw [hlaw.lower_lower]
    simp [portText]
  · have hlower : py.lower host' = host' := hlaw.lower_fixed host _ fun c hc => by
      rw [heq]
      exact List.mem_append_left _ hc
    have hsplit : splitHostPort py (py.lower host) = some (host', port) := by
      rw [heq] at hopen' ⊢
      rw [splitHostPort_port hopen' hport, hlower]
    have hkeeps : KeepsPort py scheme (py.lower host) ↔
        port ≠ [] ∧ dropDefaultPort py scheme port = some port := by
      constructor
      · exact fun h => h host' port hpart
      · rintro h host₂ port₂ heq₂
        rw [hpart] at heq₂
        cases heq₂
        exact h
    rw [hkeeps]
    constructor
    · intro h
      have huser := (splitUserinfo_spec netloc).2.2 _ hat'
      have hsplit' : splitHostPort py
          (splitUserinfo ((splitUserinfo netloc).1 ++ py.lower host)).2 = some (host', port) := by
        rw [huser]
        exact hsplit
      rw [normalizeAuthority_some hsplit', huser] at h
      obtain ⟨port', hport', hjoin⟩ := Option.map_eq_some_iff.mp h
      dsimp only at hjoin
      rw [heq, List.append_right_inj, List.append_right_inj] at hjoin
      unfold portText at hjoin
      split_ifs at hjoin with hnil
      obtain rfl := (List.cons.inj hjoin).2
      exact ⟨hnil, hport'⟩
    · rintro ⟨hne, hkept⟩
      refine normalizeAuthority_fixed hat' hsplit hkept ?_
      rw [heq, portText, if_neg hne]

theorem dropColon_portText (port : List Char) : dropColon (portText port) = port := by
  unfold portText
  split_ifs with h
  · rw [h]
    rfl
  · rfl

theorem dropColon_subset (rest : List Char) : dropColon rest ⊆ rest := by
  unfold dropColon
  split
  · exact List.subset_cons_self _ _
  · exact List.Subset.refl _

theorem not_mem_portText {port port' : List Char} (h : '@' ∉ port)
    (hport : port' = [] ∨ port' = port) : '@' ∉ portText port' := by
  unfold portText
  rcases hport with rfl | rfl
  · simp
  · split_ifs
    · simp
    · simpa using h

/-- An address in brackets is normalized once. -/
theorem brackets_again (hlaw : py.Lawful) {netloc scheme netloc' a b : List Char}
    (heq : (splitUserinfo netloc).2 = '[' :: (a ++ ']' :: b)) (ha : ']' ∉ a)
    (h : normalizeAuthority py netloc scheme = some netloc') :
    normalizeAuthority py netloc' scheme = some netloc' := by
  obtain ⟨-, hat, -⟩ := splitUserinfo_spec netloc
  rw [normalizeAuthority_some (by rw [heq]; exact splitHostPort_closed ha b)] at h
  obtain ⟨port', hport', rfl⟩ := Option.map_eq_some_iff.mp h
  obtain ⟨hkept, hsame⟩ := kept_of_dropDefaultPort hport'
  obtain ⟨a', hlower, ha', -⟩ := lower_brackets hlaw ha
  have hfixed : py.lower ('[' :: a' ++ [']']) = '[' :: (a' ++ [']']) := by
    rw [List.cons_append, ← hlower, hlaw.lower_lower]
  have hsplit : splitHostPort py (('[' :: (a' ++ [']'])) ++ portText port') =
      some ('[' :: (a' ++ [']']), port') := by
    have hjoin : ('[' :: (a' ++ [']'])) ++ portText port' =
        '[' :: (a' ++ ']' :: portText port') := by simp
    rw [hjoin, splitHostPort_closed ha', hfixed, dropColon_portText]
  have hat' : '@' ∉ ('[' :: (a' ++ [']'])) ++ portText port' := by
    intro hmem
    rcases List.mem_append.mp hmem with hmem | hmem
    · rw [← hlower, hlaw.mem_lower (by decide)] at hmem
      refine hat (heq ▸ ?_)
      simp only [List.mem_cons, List.mem_append] at hmem ⊢
      tauto
    · refine not_mem_portText (fun hmem => hat (heq ▸ ?_)) hsame hmem
      have hb := dropColon_subset b hmem
      simp [hb]
  rw [hlower]
  exact normalizeAuthority_fixed hat' hsplit hkept rfl

/-- A host alone is normalized once. -/
theorem lone_host_again (hlaw : py.Lawful) {netloc scheme netloc' : List Char}
    (hopen : (splitUserinfo netloc).2.head? ≠ some '[') (hcolon : ':' ∉ (splitUserinfo netloc).2)
    (h : normalizeAuthority py netloc scheme = some netloc') :
    normalizeAuthority py netloc' scheme = some netloc' := by
  obtain ⟨-, hat, -⟩ := splitUserinfo_spec netloc
  rw [normalizeAuthority_some (splitHostPort_host hopen hcolon), dropDefaultPort_nil,
    Option.map_some] at h
  obtain rfl := Option.some.inj h
  rw [portText, if_pos rfl, List.append_nil, host_again hlaw hat hopen]
  exact keepsPort_of_not_mem fun hmem => hcolon ((hlaw.mem_lower (by decide)).mp hmem)

/-- A host whose port is kept is normalized once. -/
theorem kept_port_again (hlaw : py.Lawful) {netloc scheme host port : List Char}
    (heq : (splitUserinfo netloc).2 = host ++ ':' :: port)
    (hopen : (splitUserinfo netloc).2.head? ≠ some '[') (hport : ':' ∉ port) (hne : port ≠ [])
    (hkept : dropDefaultPort py scheme port = some port) :
    normalizeAuthority py ((splitUserinfo netloc).1 ++ (py.lower host ++ ':' :: port)) scheme =
      some ((splitUserinfo netloc).1 ++ (py.lower host ++ ':' :: port)) := by
  obtain ⟨-, hat, -⟩ := splitUserinfo_spec netloc
  have hhead := @head_lower _ _ hlaw _ (':' :: port) (heq ▸ hopen) (by simp)
  refine normalizeAuthority_fixed ?_ (splitHostPort_port hhead hport) hkept ?_
  · intro hmem
    rcases List.mem_append.mp hmem with hmem | hmem
    · exact hat (heq ▸ List.mem_append_left _ ((hlaw.mem_lower (by decide)).mp hmem))
    · exact hat (heq ▸ List.mem_append_right _ hmem)
  · rw [hlaw.lower_lower, portText, if_neg hne]

/-- **A network location is normalized once**, unless its port is left out and its host ends in
another one. -/
theorem normalizeAuthority_again (hlaw : py.Lawful) {netloc scheme netloc' : List Char}
    (h : normalizeAuthority py netloc scheme = some netloc') :
    (∃ host, DropsPort py netloc scheme host ∧
      netloc' = (splitUserinfo netloc).1 ++ py.lower host ∧
      (normalizeAuthority py netloc' scheme = some netloc' ↔
        KeepsPort py scheme (py.lower host))) ∨
      (∀ host, ¬ DropsPort py netloc scheme host) ∧
        normalizeAuthority py netloc' scheme = some netloc' := by
  obtain ⟨-, hat, -⟩ := splitUserinfo_spec netloc
  rcases host_cases (splitUserinfo netloc).2 with ⟨a, heq, ha⟩ | ⟨a, b, heq, ha⟩ | ⟨hopen, -⟩
  · -- the brackets are not closed
    have hnone : normalizeAuthority py netloc scheme = some netloc := normalizeAuthority_none
      (by rw [heq]; exact splitHostPort_open ha)
    obtain rfl := Option.some.inj (hnone.symm.trans h)
    exact .inr ⟨fun host hdrops => hdrops.1 (by rw [heq]; rfl), hnone⟩
  · exact .inr ⟨fun host hdrops => hdrops.1 (by rw [heq]; rfl), brackets_again hlaw heq ha h⟩
  rcases rpartition_cases ':' (splitUserinfo netloc).2 with
    ⟨hcolon, hpart⟩ | ⟨host, port, heq, hport, hpart⟩
  · refine .inr ⟨?_, lone_host_again hlaw hopen hcolon h⟩
    rintro host ⟨-, port, hpart', -⟩
    rw [hpart] at hpart'
    cases hpart'
  · have hsplit : splitHostPort py (splitUserinfo netloc).2 = some (py.lower host, port) := by
      rw [heq] at hopen ⊢
      exact splitHostPort_port hopen hport
    rw [normalizeAuthority_some hsplit] at h
    obtain ⟨port', hport', rfl⟩ := Option.map_eq_some_iff.mp h
    obtain ⟨hkept, hsame⟩ := kept_of_dropDefaultPort hport'
    by_cases hnil : port' = []
    · -- the port is left out
      subst hnil
      refine .inl ⟨host, ⟨hopen, port, hpart, hport'⟩, by simp [portText], ?_⟩
      have hhost : '@' ∉ host := fun hmem => hat (heq ▸ List.mem_append_left _ hmem)
      have hhead : host.head? ≠ some '[' := by
        rcases host with _ | ⟨c, host⟩
        · simp
        · rw [heq] at hopen
          simpa using hopen
      rw [portText, if_pos rfl, List.append_nil]
      exact host_again hlaw hhost hhead
    · obtain rfl := hsame.resolve_left hnil
      rw [portText, if_neg hnil]
      refine .inr ⟨?_, kept_port_again hlaw heq hopen hport hnil hkept⟩
      rintro host' ⟨-, port, hpart', hdrop⟩
      obtain ⟨-, -, rfl⟩ : host = host' ∧ [':'] = [':'] ∧ port' = port := by
        rw [hpart] at hpart'
        simpa using hpart'
      exact hnil (Option.some.inj (hkept.symm.trans hdrop))

/-- The host, before it was lowered, and the port are parts of the text. -/
theorem splitHostPort_subset {hostport host port : List Char}
    (h : splitHostPort py hostport = some (host, port)) :
    (∃ raw, host = py.lower raw ∧ raw ⊆ hostport) ∧ port ⊆ hostport := by
  rcases host_cases hostport with ⟨a, rfl, ha⟩ | ⟨a, b, rfl, ha⟩ | ⟨hopen, -⟩
  · rw [splitHostPort_open ha] at h
    cases h
  · rw [splitHostPort_closed ha] at h
    cases h
    refine ⟨⟨_, rfl, fun c hc => ?_⟩, fun c hc => ?_⟩
    · simp only [List.mem_cons, List.mem_append] at hc ⊢
      tauto
    · have hb := dropColon_subset b hc
      simp [hb]
  · rcases rpartition_cases ':' hostport with ⟨hcolon, -⟩ | ⟨raw, port, rfl, hport, -⟩
    · rw [splitHostPort_host hopen hcolon] at h
      cases h
      exact ⟨⟨_, rfl, List.Subset.refl _⟩, List.nil_subset _⟩
    · rw [splitHostPort_port hopen hport] at h
      cases h
      exact ⟨⟨_, rfl, List.subset_append_left _ _⟩,
        fun c hc => List.mem_append_right _ (List.mem_cons_of_mem _ hc)⟩

/-- A normalized network location has no new marks but a colon. -/
theorem mem_normalizeAuthority (hlaw : py.Lawful) {netloc scheme netloc' : List Char}
    (h : normalizeAuthority py netloc scheme = some netloc') {c : Char} (hc : isMark c = true)
    (hne : c ≠ ':') (hmem : c ∈ netloc') : c ∈ netloc := by
  obtain ⟨hjoin, -⟩ := splitUserinfo_spec netloc
  cases hsplit : splitHostPort py (splitUserinfo netloc).2 with
  | none =>
    rw [normalizeAuthority_none hsplit] at h
    exact Option.some.inj h ▸ hmem
  | some hostport =>
    obtain ⟨host, port⟩ := hostport
    obtain ⟨⟨raw, rfl, hraw⟩, hport⟩ := splitHostPort_subset hsplit
    rw [normalizeAuthority_some hsplit] at h
    obtain ⟨port', hport', rfl⟩ := Option.map_eq_some_iff.mp h
    rw [← hjoin]
    simp only [List.mem_append] at hmem ⊢
    rcases hmem with hmem | hmem | hmem
    · exact .inl hmem
    · exact .inr (hraw ((hlaw.mem_lower hc).mp hmem))
    · refine .inr (hport ?_)
      unfold portText at hmem
      split_ifs at hmem with hnil
      · cases hmem
      · rw [← (kept_of_dropDefaultPort hport').2.resolve_left hnil]
        exact (List.mem_cons.mp hmem).resolve_left hne

/-! ## URLs -/

/-- The host of a URL ends in a second port behind the one that is left out. -/
def StripsAgain (py : Python F) (value : List Char) : Prop :=
  ∃ parts host, httpParts py value = some parts ∧
    DropsPort py parts.netloc parts.scheme host ∧
    Accepted py ((splitUserinfo parts.netloc).1 ++ py.lower host) ∧
    ¬ KeepsPort py parts.scheme (py.lower host)

/-- The path of a normalized URL. -/
def plainUrlPath (path : List Char) : List Char :=
  if lowercasePercentEscapes path = [] then ['/'] else lowercasePercentEscapes path

/-- The parts of a normalized URL. -/
def normalParts (parts : SplitResult) (netloc : List Char) : SplitResult where
  scheme := parts.scheme
  netloc := netloc
  path := plainUrlPath parts.path
  query := lowercasePercentEscapes parts.query
  fragment := []

theorem normalizeUrl_none {value : List Char} (h : httpParts py value = none) :
    normalizeUrl py value = some value := by
  unfold normalizeUrl
  rw [h]

theorem normalizeUrl_some {value : List Char} {parts : SplitResult}
    (h : httpParts py value = some parts) :
    normalizeUrl py value = (normalizeAuthority py parts.netloc parts.scheme).map fun netloc =>
      urlunsplit (normalParts parts netloc) := by
  unfold normalizeUrl
  rw [h]
  rfl

theorem scheme_cases {scheme : List Char}
    (h : (defaultPorts.lookup (String.ofList scheme)).isSome) :
    scheme = "http".toList ∨ scheme = "https".toList := by
  have hcases : String.ofList scheme = "http" ∨ String.ofList scheme = "https" := by
    by_contra hno
    obtain ⟨hhttp, hhttps⟩ := not_or.mp hno
    simp [defaultPorts, List.lookup_cons, beq_eq_false_iff_ne.mpr hhttp,
      beq_eq_false_iff_ne.mpr hhttps] at h
  exact hcases.imp (fun h => by simpa using congrArg String.toList h)
    fun h => by simpa using congrArg String.toList h

theorem plainUrlPath_again {path : List Char} : plainUrlPath (plainUrlPath path) =
    plainUrlPath path := by
  unfold plainUrlPath
  by_cases hnil : lowercasePercentEscapes path = []
  · rw [if_pos hnil]
    rfl
  · rw [if_neg hnil, lowercasePercentEscapes_idem, if_neg hnil]

theorem isMark_of_isUnsafe {c : Char} (h : isUnsafe c = true) :
    isMark c = true ∧ isHex c = false ∧ c ≠ ':' := by
  have hall : ∀ d ∈ ['\t', '\r', '\n'], isMark d = true ∧ isHex d = false ∧ d ≠ ':' := by
    simp only [List.forall_mem_cons, List.not_mem_nil, false_imp_iff, forall_const, and_true]
    decide
  exact hall c (of_decide_eq_true h)

theorem isMark_of_ends {c : Char} (h : c ∈ ['/', '?', '#']) :
    isMark c = true ∧ isHex c = false ∧ c ≠ ':' := by
  have hall : ∀ d ∈ ['/', '?', '#'], isMark d = true ∧ isHex d = false ∧ d ≠ ':' := by
    simp only [List.forall_mem_cons, List.not_mem_nil, false_imp_iff, forall_const, and_true]
    decide
  exact hall c h

/-- Escapes in lower case bring in nothing that ends a part of a URL. -/
theorem safe_lowercasePercentEscapes {s : List Char} {ends : List Char}
    (hends : ends ⊆ ['/', '?', '#']) (h : ∀ c ∈ s, c ∉ ends ∧ isUnsafe c = false) :
    ∀ c ∈ lowercasePercentEscapes s, c ∉ ends ∧ isUnsafe c = false := by
  intro c hc
  constructor
  · intro hmem
    have hhex := (isMark_of_ends (hends hmem)).2.1
    exact (h c (mem_of_mem_lowercasePercentEscapes hc hhex)).1 hmem
  · by_contra hunsafe
    have hunsafe : isUnsafe c = true := eq_true_of_ne_false hunsafe
    have hhex := (isMark_of_isUnsafe hunsafe).2.1
    rw [(h c (mem_of_mem_lowercasePercentEscapes hc hhex)).2] at hunsafe
    cases hunsafe

/-- The parts of a normalized URL make a URL that is split into them again. -/
theorem clean_normalParts {value : List Char} {parts : SplitResult}
    (h : httpParts py value = some parts) {netloc : List Char}
    (hnetloc : ∀ c ∈ netloc, isMark c = true → c ≠ ':' → c ∈ parts.netloc) :
    (normalParts parts netloc).Clean := by
  obtain ⟨hsplit, hhttp⟩ := Option.filter_eq_some_iff.mp h
  have hparsed := urlsplit_parsed hsplit
  obtain ⟨hscheme, hne⟩ := of_decide_eq_true hhttp
  have hpath := safe_lowercasePercentEscapes (by simp) hparsed.path_chars
  have hquery := @safe_lowercasePercentEscapes parts.query ['#'] (by simp)
    fun c hc => by simpa using hparsed.query c hc
  refine ⟨?_, ?_, ?_, ?_, ?_, ?_, rfl⟩
  · rcases scheme_cases hscheme with heq | heq
    · change String.ofList parts.scheme ∈ usesNetloc
      rw [heq]
      decide
    · change String.ofList parts.scheme ∈ usesNetloc
      rw [heq]
      decide
  · rcases scheme_cases hscheme with heq | heq
    · exact ⟨'h', "ttp".toList, heq, by decide, by decide, by decide⟩
    · exact ⟨'h', "ttps".toList, heq, by decide, by decide, by decide⟩
  · intro c hc
    constructor
    · intro hmem
      obtain ⟨hmark, -, hcolon⟩ := isMark_of_ends hmem
      exact (hparsed.netloc c (hnetloc c hc hmark hcolon)).1 hmem
    · by_contra hunsafe
      have hunsafe : isUnsafe c = true := eq_true_of_ne_false hunsafe
      obtain ⟨hmark, -, hcolon⟩ := isMark_of_isUnsafe hunsafe
      rw [(hparsed.netloc c (hnetloc c hc hmark hcolon)).2] at hunsafe
      cases hunsafe
  · change ∃ path, plainUrlPath parts.path = '/' :: path
    unfold plainUrlPath
    split_ifs with hnil
    · exact ⟨[], rfl⟩
    · have hraw : parts.path ≠ [] := by
        intro hraw
        rw [hraw] at hnil
        exact hnil rfl
      obtain ⟨path, hslash⟩ := hparsed.path hne hraw
      exact ⟨lowercasePercentEscapes path, by
        rw [hslash, lowercasePercentEscapes_cons (by decide)]⟩
  · intro c hc
    change c ∈ plainUrlPath parts.path at hc
    unfold plainUrlPath at hc
    split_ifs at hc
    · rw [List.mem_singleton.mp hc]
      decide
    · exact hpath c hc
  · intro c hc
    simpa using hquery c hc

theorem httpParts_normal {value : List Char} {parts : SplitResult}
    (h : httpParts py value = some parts) {netloc : List Char}
    (hclean : (normalParts parts netloc).Clean) :
    httpParts py (urlunsplit (normalParts parts netloc)) =
      if Accepted py netloc ∧ netloc ≠ [] then some (normalParts parts netloc) else none := by
  have hscheme := httpParts_eq_some h
  have hsplit : urlsplit py (urlunsplit (normalParts parts netloc)) =
      if Accepted py netloc then some (normalParts parts netloc) else none :=
    urlsplit_urlunsplit hclean
  unfold httpParts
  rw [hsplit]
  by_cases haccepted : Accepted py netloc
  · by_cases hnil : netloc = []
    · simp [hnil, normalParts]
    · simp [haccepted, hnil, normalParts, hscheme]
  · simp [haccepted]

/-- Two normalized URLs that differ in their network locations differ. -/
theorem urlunsplit_normalParts_inj {parts : SplitResult} {netloc netloc' : List Char}
    (hclean : (normalParts parts netloc).Clean) (hclean' : (normalParts parts netloc').Clean)
    (h : urlunsplit (normalParts parts netloc) = urlunsplit (normalParts parts netloc')) :
    netloc = netloc' := by
  rw [urlunsplit_clean hclean, urlunsplit_clean hclean'] at h
  simpa [normalParts] using h

theorem dropsPort_unique {netloc scheme host host' : List Char}
    (h : DropsPort py netloc scheme host) (h' : DropsPort py netloc scheme host') :
    host = host' := by
  obtain ⟨-, port, hpart, -⟩ := h
  obtain ⟨-, port', hpart', -⟩ := h'
  rw [hpart] at hpart'
  exact (Prod.mk.inj hpart').1

/-- A second port is stripped if the normalized network location is changed by a second pass. -/
theorem stripsAgain_iff (hlaw : py.Lawful) {value netloc : List Char} {parts : SplitResult}
    (hparts : httpParts py value = some parts)
    (hnetloc : normalizeAuthority py parts.netloc parts.scheme = some netloc) :
    StripsAgain py value ↔ (Accepted py netloc ∧ netloc ≠ []) ∧
      normalizeAuthority py netloc parts.scheme ≠ some netloc := by
  rcases normalizeAuthority_again hlaw hnetloc with ⟨host, hdrops, rfl, hiff⟩ | ⟨hnone, hsame⟩
  · simp only [ne_eq, hiff]
    constructor
    · rintro ⟨parts', host', hparts', hdrops', haccepted, hkeeps⟩
      obtain rfl := Option.some.inj (hparts.symm.trans hparts')
      obtain rfl := dropsPort_unique hdrops hdrops'
      refine ⟨⟨haccepted, fun hnil => hkeeps ?_⟩, hkeeps⟩
      rw [(List.append_eq_nil_iff.mp hnil).2]
      exact keepsPort_of_not_mem (by simp)
    · rintro ⟨⟨haccepted, -⟩, hkeeps⟩
      exact ⟨parts, host, hparts, hdrops, haccepted, hkeeps⟩
  · refine iff_of_false ?_ fun h => h.2 hsame
    rintro ⟨parts', host, hparts', hdrops, -⟩
    obtain rfl := Option.some.inj (hparts.symm.trans hparts')
    exact hnone host hdrops

theorem normalParts_again (parts : SplitResult) (netloc netloc' : List Char) :
    normalParts (normalParts parts netloc) netloc' = normalParts parts netloc' := by
  simp only [normalParts, plainUrlPath_again, lowercasePercentEscapes_idem]

/-- **A URL is normalized once**, unless its host ends in a second port. -/
theorem url_again (hlaw : py.Lawful) {value url : List Char} (hurl : "://".toList <:+: value)
    (h : normalizeUrl py value = some url) :
    normalizeChars py url = some url ↔ ¬ StripsAgain py value := by
  cases hparts : httpParts py value with
  | none =>
    rw [normalizeUrl_none hparts] at h
    obtain rfl := Option.some.inj h
    refine iff_of_true ?_ ?_
    · rw [normalizeChars_url hurl, normalizeUrl_none hparts]
    · rintro ⟨parts, host, hparts', -⟩
      rw [hparts] at hparts'
      cases hparts'
  | some parts =>
    rw [normalizeUrl_some hparts] at h
    obtain ⟨netloc, hnetloc, rfl⟩ := Option.map_eq_some_iff.mp h
    have hclean := clean_normalParts hparts fun c hc hmark hcolon =>
      mem_normalizeAuthority hlaw hnetloc hmark hcolon hc
    have hinfix : "://".toList <:+: urlunsplit (normalParts parts netloc) := by
      rw [urlunsplit_clean hclean]
      exact ⟨_, _, List.append_assoc _ _ _⟩
    rw [normalizeChars_url hinfix, stripsAgain_iff hlaw hparts hnetloc]
    have hagain := httpParts_normal hparts hclean
    by_cases hok : Accepted py netloc ∧ netloc ≠ []
    · rw [if_pos hok] at hagain
      rw [normalizeUrl_some hagain]
      simp only [normalParts_again]
      rw [not_and_not_right, forall_prop_of_true hok]
      constructor
      · intro hsame
        obtain ⟨netloc', hnetloc', heq⟩ := Option.map_eq_some_iff.mp hsame
        have hmarks : ∀ c ∈ netloc', isMark c = true → c ≠ ':' → c ∈ parts.netloc :=
          fun c hc hmark hcolon => mem_normalizeAuthority hlaw hnetloc hmark hcolon
            (mem_normalizeAuthority hlaw hnetloc' hmark hcolon hc)
        rw [urlunsplit_normalParts_inj (clean_normalParts hparts hmarks) hclean heq] at hnetloc'
        exact hnetloc'
      · intro hsame
        exact Option.map_eq_some_iff.mpr ⟨netloc, hsame, rfl⟩
    · rw [if_neg hok] at hagain
      rw [normalizeUrl_none hagain]
      exact iff_of_true rfl fun h => hok h.1

end

end ScanPlatform
