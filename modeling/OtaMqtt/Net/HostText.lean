import OtaMqtt.Lib.CText
import OtaMqtt.Lib.Delimited

/-! What a host text is split into before it is resolved.

The searches of `Address::Lookup` leave `service` where the last of them found a colon, also
when no branch then takes a node in front of it. -/

namespace OtaMqtt.Net.HostText

open OtaMqtt.Lib.CText OtaMqtt.Lib.Delimited

abbrev Text := List Char

/-- The first two arguments of `getaddrinfo`. -/
structure Query where
  node : Text
  service : Option Text
  deriving DecidableEq, Repr

def bracketed (host : Text) : Query :=
  if host.head? = some '[' then
    match memchr host.tail ']' with
    | some endipv6 =>
        ⟨host.tail.take (host.length - endipv6.length - 1),
          if endipv6.tail.head? = some ':' then some (endipv6.drop 2) else none⟩
    | none => ⟨[], none⟩
  else ⟨[], none⟩

/-- The node in front of the only colon; `service` is assigned before that is known. -/
def separated (host : Text) : Query :=
  match memchr host ':' with
  | none => ⟨[], none⟩
  | some service =>
      match memchr service.tail ':' with
      | none => ⟨host.take (host.length - service.length), some service.tail⟩
      | some _ => ⟨[], some service⟩

/-- `Address::Lookup` up to `getaddrinfo`. -/
def split (host : Text) : Query :=
  let query := if (bracketed host).node = [] then separated host else bracketed host
  if query.node = [] then { query with node := host } else query

/-- The characters that a C string shows of a text. -/
def shown (text : Text) : Text := text.takeWhile (· ≠ '\x00')

def lookup (host : Text) : Query := ⟨shown (split host).node, (split host).service.map shown⟩

/-- A node in brackets at the front, and what follows the closing one. -/
def Closed (host node rest : Text) : Prop :=
  node ≠ [] ∧ ']' ∉ node ∧ host = '[' :: (node ++ ']' :: rest)

/-- The forms `[node]` and `[node]:service`. -/
def Bracketed (host : Text) : Prop :=
  ∃ node rest, Closed host node rest ∧ (rest = [] ∨ rest.head? = some ':')

/-- The form `node:service` with a single colon. -/
def Separated (host node service : Text) : Prop :=
  node ≠ [] ∧ ':' ∉ node ∧ ':' ∉ service ∧ host = node ++ ':' :: service

/-- The documented pair: brackets first, then the single colon, else the whole text. -/
inductive Documented (host : Text) : Query → Prop
  | bracketService {node service : Text} : Closed host node (':' :: service) →
      Documented host ⟨node, some service⟩
  | bracket {node : Text} : Closed host node [] → Documented host ⟨node, none⟩
  | colon {node service : Text} : ¬ Bracketed host → Separated host node service →
      Documented host ⟨node, some service⟩
  | whole : ¬ Bracketed host → (∀ node service, ¬ Separated host node service) →
      Documented host ⟨host, none⟩

/-- The texts that the searches were written for: a bracketed node with nothing or a colon
behind it, and otherwise no colon at all or a single one behind a node. -/
def Foreseen (host : Text) : Prop :=
  Bracketed host ∨ (∀ node rest, ¬ Closed host node rest) ∧
    (':' ∉ host ∨ ∃ node service, Separated host node service)

theorem Closed.unique {host node rest node' rest' : Text} (closed : Closed host node rest)
    (closed' : Closed host node' rest') : node = node' ∧ rest = rest' := by
  obtain ⟨-, free, rfl⟩ := closed
  obtain ⟨-, free', same⟩ := closed'
  exact split_first free free' (List.cons.inj same).2

theorem Separated.unique {host node service node' service' : Text}
    (separated : Separated host node service) (separated' : Separated host node' service') :
    node = node' ∧ service = service' := by
  obtain ⟨-, free, -, rfl⟩ := separated
  obtain ⟨-, free', -, same⟩ := separated'
  exact split_first free free' same

theorem Closed.bracketed {host node rest : Text} (closed : Closed host node rest)
    (follows : rest = [] ∨ rest.head? = some ':') : Bracketed host :=
  ⟨node, rest, closed, follows⟩

theorem Documented.unique {host : Text} {query query' : Query} (documented : Documented host query)
    (documented' : Documented host query') : query = query' := by
  cases documented with
  | bracketService closed =>
      cases documented' with
      | bracketService closed' =>
          obtain ⟨nodes, services⟩ := closed.unique closed'
          rw [nodes, (List.cons.inj services).2]
      | bracket closed' => cases (closed.unique closed').2
      | colon bare => exact absurd (closed.bracketed (.inr rfl)) bare
      | whole bare => exact absurd (closed.bracketed (.inr rfl)) bare
  | bracket closed =>
      cases documented' with
      | bracketService closed' => cases (closed.unique closed').2
      | bracket closed' => rw [(closed.unique closed').1]
      | colon bare => exact absurd (closed.bracketed (.inl rfl)) bare
      | whole bare => exact absurd (closed.bracketed (.inl rfl)) bare
  | colon bare separated =>
      cases documented' with
      | bracketService closed => exact absurd (closed.bracketed (.inr rfl)) bare
      | bracket closed => exact absurd (closed.bracketed (.inl rfl)) bare
      | colon _ separated' =>
          obtain ⟨nodes, services⟩ := separated.unique separated'
          rw [nodes, services]
      | whole _ none => exact absurd separated (none _ _)
  | whole bare none =>
      cases documented' with
      | bracketService closed => exact absurd (closed.bracketed (.inr rfl)) bare
      | bracket closed => exact absurd (closed.bracketed (.inl rfl)) bare
      | colon _ separated => exact absurd separated (none _ _)
      | whole => rfl

theorem bracketed_closed {host node rest : Text} (closed : Closed host node rest) :
    bracketed host = ⟨node, if rest.head? = some ':' then some rest.tail else none⟩ := by
  obtain ⟨-, free, rfl⟩ := closed
  have count : ('[' :: (node ++ ']' :: rest)).length - (']' :: rest).length - 1 = node.length := by
    simp only [List.length_cons, List.length_append]
    omega
  rw [bracketed, if_pos (by rfl), List.tail_cons, memchr_found rest free]
  simp only [count, List.take_left, List.tail_cons, List.drop_succ_cons, List.drop_one]

theorem bracketed_open {host : Text} (unclosed : ∀ node rest, ¬ Closed host node rest) :
    (bracketed host).node = [] := by
  unfold bracketed
  split_ifs with opens
  · obtain ⟨rest, rfl⟩ := List.head?_eq_some_iff.mp opens
    rw [List.tail_cons]
    by_cases closes : ']' ∈ rest
    · obtain ⟨node, behind, rfl, free⟩ := List.eq_append_cons_of_mem closes
      have empty : node = [] := by
        by_contra filled
        exact unclosed node behind ⟨filled, free, rfl⟩
      subst empty
      rw [memchr_found behind free]
      simp
    · rw [memchr_missing closes]
  · rfl

theorem split_closed {host node rest : Text} (closed : Closed host node rest) :
    split host = ⟨node, if rest.head? = some ':' then some rest.tail else none⟩ := by
  have filled := closed.1
  rw [split, bracketed_closed closed]
  simp only [filled, if_false]

theorem split_open {host : Text} (unclosed : ∀ node rest, ¬ Closed host node rest) :
    split host = if (separated host).node = [] then ⟨host, (separated host).service⟩
      else separated host := by
  rw [split, bracketed_open unclosed, if_pos rfl]

theorem separated_plain {host : Text} (plain : ':' ∉ host) : separated host = ⟨[], none⟩ := by
  rw [separated, memchr_missing plain]

theorem separated_single {node service : Text} (free : ':' ∉ node) (free' : ':' ∉ service) :
    separated (node ++ ':' :: service) = ⟨node, some service⟩ := by
  have count : (node ++ ':' :: service).length - (':' :: service).length = node.length := by simp
  rw [separated, memchr_found service free]
  simp only [List.tail_cons, memchr_missing free', count, List.take_left]

theorem separated_many {node service : Text} (free : ':' ∉ node) (more : ':' ∈ service) :
    separated (node ++ ':' :: service) = ⟨[], some (':' :: service)⟩ := by
  obtain ⟨between, behind, rfl, free'⟩ := List.eq_append_cons_of_mem more
  rw [separated, memchr_found _ free]
  simp only [List.tail_cons, memchr_found behind free']

theorem shown_clean {text : Text} (clean : '\x00' ∉ text) : shown text = text := by
  rw [shown, List.takeWhile_eq_self_iff]
  intro char member
  exact decide_eq_true fun same => clean (same ▸ member)

theorem bracketed_within (host : Text) : (bracketed host).node ⊆ host ∧
    ∀ service, (bracketed host).service = some service → service ⊆ host := by
  unfold bracketed
  split_ifs with opens
  · split
    · rename_i endipv6 search
      have within := List.Subset.trans (memchr_suffix search).subset (List.tail_subset host)
      constructor
      · exact List.Subset.trans (List.take_subset _ _) (List.tail_subset host)
      · intro service taken
        dsimp only at taken
        split_ifs at taken
        rw [← Option.some.inj taken]
        exact List.Subset.trans (List.drop_subset _ _) within
    · exact ⟨List.nil_subset _, by rintro service ⟨⟩⟩
  · exact ⟨List.nil_subset _, by rintro service ⟨⟩⟩

theorem separated_within (host : Text) : (separated host).node ⊆ host ∧
    ∀ service, (separated host).service = some service → service ⊆ host := by
  unfold separated
  split
  · exact ⟨List.nil_subset _, by rintro service ⟨⟩⟩
  · rename_i found search
    have within := (memchr_suffix search).subset
    split
    · refine ⟨List.take_subset _ _, ?_⟩
      rintro service ⟨⟩
      exact List.Subset.trans (List.tail_subset _) within
    · refine ⟨List.nil_subset _, ?_⟩
      rintro service ⟨⟩
      exact within

theorem split_within (host : Text) : (split host).node ⊆ host ∧
    ∀ service, (split host).service = some service → service ⊆ host := by
  have either : ∀ query : Query, (query.node ⊆ host ∧
      ∀ service, query.service = some service → service ⊆ host) →
      (if query.node = [] then { query with node := host } else query).node ⊆ host ∧
      ∀ service, (if query.node = [] then { query with node := host } else query).service =
        some service → service ⊆ host := by
    rintro query ⟨nodes, services⟩
    split_ifs
    · exact ⟨List.Subset.refl _, services⟩
    · exact ⟨nodes, services⟩
  unfold split
  apply either
  split_ifs
  · exact separated_within host
  · exact bracketed_within host

theorem lookup_clean {host : Text} (clean : '\x00' ∉ host) : lookup host = split host := by
  obtain ⟨nodes, services⟩ := split_within host
  rw [lookup, shown_clean fun member => clean (nodes member)]
  cases taken : (split host).service with
  | none => rw [Option.map_none, ← taken]
  | some service =>
      rw [Option.map_some, shown_clean fun member => clean (services service taken member), ← taken]

theorem split_service_open {host : Text} (unclosed : ∀ node rest, ¬ Closed host node rest)
    (colon : ':' ∈ host) : (split host).service ≠ none := by
  obtain ⟨node, service, rfl, free⟩ := List.eq_append_cons_of_mem colon
  rw [split_open unclosed]
  by_cases more : ':' ∈ service
  · rw [separated_many free more, if_pos rfl]
    exact Option.some_ne_none _
  · rw [separated_single free more]
    split_ifs <;> exact Option.some_ne_none _

theorem follows_of_documented {host node rest : Text} (closed : Closed host node rest)
    (documented : Documented host (split host)) : rest = [] ∨ rest.head? = some ':' := by
  by_contra strange
  obtain ⟨present, other⟩ := not_or.mp strange
  rw [split_closed closed, if_neg other] at documented
  generalize query : (⟨node, none⟩ : Query) = taken at documented
  cases documented with
  | bracketService closed' => cases query
  | bracket closed' => exact present (closed.unique closed').2
  | colon => cases query
  | whole =>
      have same : node = host := (Query.mk.inj query).1
      have lengths := congrArg List.length closed.2.2
      rw [← same] at lengths
      simp only [List.length_cons, List.length_append] at lengths
      omega

theorem separated_of_documented {host : Text} (unclosed : ∀ node rest, ¬ Closed host node rest)
    (colon : ':' ∈ host) (documented : Documented host (split host)) :
    ∃ node service, Separated host node service := by
  have taken := split_service_open unclosed colon
  generalize split host = query at documented taken
  cases documented with
  | bracketService closed => exact absurd closed (unclosed _ _)
  | bracket closed => exact absurd closed (unclosed _ _)
  | colon _ separated => exact ⟨_, _, separated⟩
  | whole => exact absurd rfl taken

theorem documented_closed {host node rest : Text} (closed : Closed host node rest)
    (follows : rest = [] ∨ rest.head? = some ':') : Documented host (split host) := by
  rw [split_closed closed]
  cases rest with
  | nil => exact .bracket closed
  | cons head service =>
      have colon : head = ':' := by simpa using follows
      subst colon
      exact .bracketService closed

theorem documented_open {host : Text} (unclosed : ∀ node rest, ¬ Closed host node rest)
    (colons : ':' ∉ host ∨ ∃ node service, Separated host node service) :
    Documented host (split host) := by
  have bare : ¬ Bracketed host := fun ⟨node, rest, closed, _⟩ => unclosed node rest closed
  rw [split_open unclosed]
  cases colons with
  | inl plain =>
      rw [separated_plain plain, if_pos rfl]
      refine .whole bare fun node service separated => plain ?_
      rw [separated.2.2.2]
      exact List.mem_append_right _ (List.mem_cons_self ..)
  | inr separated =>
      obtain ⟨node, service, filled, free, free', rfl⟩ := separated
      rw [separated_single free free', if_neg filled]
      exact .colon bare ⟨filled, free, free', rfl⟩

/-- The resolver is given the documented pair exactly for the foreseen texts. -/
theorem lookup_documented_iff {host : Text} (clean : '\x00' ∉ host) :
    Documented host (lookup host) ↔ Foreseen host := by
  rw [lookup_clean clean]
  constructor
  · intro documented
    by_cases closes : ∃ node rest, Closed host node rest
    · obtain ⟨node, rest, closed⟩ := closes
      exact .inl ⟨node, rest, closed, follows_of_documented closed documented⟩
    · have unclosed : ∀ node rest, ¬ Closed host node rest :=
        fun node rest closed => closes ⟨node, rest, closed⟩
      refine .inr ⟨unclosed, ?_⟩
      by_cases colon : ':' ∈ host
      · exact .inr (separated_of_documented unclosed colon documented)
      · exact .inl colon
  · intro foreseen
    cases foreseen with
    | inl bracketed =>
        obtain ⟨node, rest, closed, follows⟩ := bracketed
        exact documented_closed closed follows
    | inr colons => exact documented_open colons.1 colons.2

theorem host_port_documented :
    Documented "[fe80::1]:80".toList (lookup "[fe80::1]:80".toList) := by
  refine (lookup_documented_iff (by decide)).mpr (.inl ⟨"fe80::1".toList, ":80".toList, ?_, ?_⟩)
  · exact ⟨by decide, by decide, by decide⟩
  · exact .inr (by decide)

/-- The loopback address in its short form is resolved with itself as the service. -/
theorem loopback_split : ¬ ∀ host : Text, '\x00' ∉ host → Documented host (lookup host) := by
  intro every
  have documented := every "::1".toList (by decide)
  have split : lookup "::1".toList = ⟨"::1".toList, some "::1".toList⟩ := by decide
  have bare : ¬ Bracketed "::1".toList := by
    rintro ⟨node, rest, ⟨-, -, same⟩, -⟩
    exact absurd (List.cons.inj same).1 (by decide)
  rw [split] at documented
  generalize query : (⟨"::1".toList, some "::1".toList⟩ : Query) = taken at documented
  cases documented with
  | bracketService closed => exact bare (closed.bracketed (.inr rfl))
  | bracket => cases query
  | colon _ separated =>
      obtain ⟨-, -, free, -⟩ := separated
      rw [← Option.some.inj (Query.mk.inj query).2] at free
      exact free (by decide)
  | whole => cases query

end OtaMqtt.Net.HostText
