import ConnectScrobbler.Metadata.Sound

/-! Where a track is available, by what its restrictions say of a country. -/
namespace ConnectScrobbler

/-- A list of countries as its codes, of two bytes each. -/
def Spells (list : String) (codes : List String) : Prop :=
  list.toList = (codes.map String.toList).flatten ∧ ∀ code ∈ codes, StrChunks.len code.toList = 2

def Occurs (country list : String) : Prop := ∃ codes, Spells list codes ∧ country ∈ codes

theorem countrylist_contains_spelled {list : String} {codes : List String} (spelled : Spells list codes)
    (country : String) : countrylist_contains list country = some (decide (country ∈ codes)) := by
  obtain ⟨whole, sized⟩ := spelled
  have pieces : ∀ piece ∈ codes.map String.toList, StrChunks.len piece = 2 := by
    intro piece member
    obtain ⟨code, there, rfl⟩ := List.mem_map.mp member
    exact sized code there
  rw [countrylist_contains, whole, StrChunks.any_flatten _ (by decide) pieces (Nat.lt_succ_self _),
    List.any_map, Option.some_inj, Bool.eq_iff_iff, List.any_eq_true, decide_eq_true_iff]
  simp [String.toList_inj]

/-- The codes of a list are its own: it is spelled in one way. -/
theorem occurs_iff {list : String} {codes : List String} (spelled : Spells list codes)
    {country : String} : Occurs country list ↔ country ∈ codes := by
  constructor
  · rintro ⟨others, again, member⟩
    have same := (countrylist_contains_spelled spelled country).symm.trans
      (countrylist_contains_spelled again country)
    rw [Option.some_inj, decide_eq_decide] at same
    exact same.mpr member
  · intro member
    exact ⟨codes, spelled, member⟩

/-! The two lists that are collected are those of the restrictions, one after the other. -/

/-- `forbidden` or `allowed`, according to the list that is picked of a restriction. -/
def gather (pick : Protocol.Restriction → Option String) : List Protocol.Restriction → String
  | [] => ""
  | r :: rest => (pick r).getD "" ++ gather pick rest

open Protocol (Restriction)

theorem foldl_add (restrictions : List Restriction) (s : Restricted) :
    restrictions.foldl Restricted.add s =
      ⟨s.forbidden ++ gather (·.countries_forbidden) restrictions,
        s.has_forbidden || restrictions.any (·.has_countries_forbidden),
        s.allowed ++ gather (·.countries_allowed) restrictions,
        s.has_allowed || restrictions.any (·.has_countries_allowed)⟩ := by
  induction restrictions generalizing s with
  | nil => simp [gather]
  | cons r rest ih =>
    have turn : s.add r =
        ⟨s.forbidden ++ r.countries_forbidden.getD "", s.has_forbidden || r.has_countries_forbidden,
          s.allowed ++ r.countries_allowed.getD "", s.has_allowed || r.has_countries_allowed⟩ := by
      unfold Restricted.add Restriction.has_countries_forbidden Restriction.has_countries_allowed
        Restriction.get_countries_forbidden Restriction.get_countries_allowed
      cases r.countries_forbidden <;> cases r.countries_allowed <;> simp
    rw [List.foldl_cons, ih, turn]
    simp only [gather, List.any_cons, String.append_assoc, Bool.or_assoc]

theorem collect_eq (restrictions : List Restriction) (catalogue : String) :
    Restricted.collect restrictions catalogue =
      let named := restrictions.filter fun r => r.catalogue_str.contains catalogue
      ⟨gather (·.countries_forbidden) named, named.any (·.has_countries_forbidden),
        gather (·.countries_allowed) named, named.any (·.has_countries_allowed)⟩ := by
  rw [Restricted.collect, foldl_add]
  simp

theorem spells_append {list more : String} {codes others : List String} (spelled : Spells list codes)
    (later : Spells more others) : Spells (list ++ more) (codes ++ others) := by
  obtain ⟨whole, sized⟩ := spelled
  obtain ⟨rest, small⟩ := later
  refine ⟨?_, ?_⟩
  · rw [String.toList_append, whole, rest, List.map_append, List.flatten_append]
  · intro code member
    exact (List.mem_append.mp member).elim (sized code) (small code)

theorem gather_spelled {pick : Restriction → Option String} {restrictions : List Restriction}
    (coded : ∀ r ∈ restrictions, ∀ list, pick r = some list → ∃ codes, Spells list codes) :
    ∃ codes, Spells (gather pick restrictions) codes ∧ ∀ country, country ∈ codes ↔
      ∃ r ∈ restrictions, ∃ list, pick r = some list ∧ Occurs country list := by
  induction restrictions with
  | nil => exact ⟨[], ⟨rfl, by simp⟩, by simp⟩
  | cons r rest ih =>
    obtain ⟨here, later⟩ := List.forall_mem_cons.mp coded
    obtain ⟨others, spelled, listed⟩ := ih later
    cases picked : pick r with
    | none =>
      refine ⟨others, ?_, ?_⟩
      · simpa [gather, picked] using spelled
      · intro country
        rw [listed country]
        simp [picked]
    | some list =>
      obtain ⟨codes, own⟩ := here list picked
      refine ⟨codes ++ others, ?_, ?_⟩
      · simpa [gather, picked] using spells_append own spelled
      · intro country
        rw [List.mem_append, listed country, ← occurs_iff own]
        simp [picked]

/-! What availability means, list by list. -/

section Sets

variable (pick : Restriction → Option String) (restrictions : List Restriction)

/-- Some restriction that names the catalogue has such a list. -/
def Listed (catalogue : String) : Prop :=
  ∃ r ∈ restrictions, catalogue ∈ r.catalogue_str ∧ pick r ≠ none

/-- The country occurs in such a list. -/
def Lists (catalogue country : String) : Prop :=
  ∃ r ∈ restrictions, catalogue ∈ r.catalogue_str ∧ ∃ list, pick r = some list ∧ Occurs country list

end Sets

/-- Some list is there, no forbidden one has the country and, if there are allowed ones,
one of these has it. -/
structure Available (restrictions : List Restriction) (country catalogue : String) : Prop where
  restricted : Listed (·.countries_forbidden) restrictions catalogue ∨
    Listed (·.countries_allowed) restrictions catalogue
  not_forbidden : ¬ Lists (·.countries_forbidden) restrictions catalogue country
  allowed : Listed (·.countries_allowed) restrictions catalogue →
    Lists (·.countries_allowed) restrictions catalogue country

theorem available_iff {restrictions : List Restriction} {country catalogue : String} :
    Available restrictions country catalogue ↔
      (Listed (·.countries_forbidden) restrictions catalogue ∨
        Listed (·.countries_allowed) restrictions catalogue) ∧
      ¬ Lists (·.countries_forbidden) restrictions catalogue country ∧
      (Listed (·.countries_allowed) restrictions catalogue →
        Lists (·.countries_allowed) restrictions catalogue country) :=
  ⟨fun h => ⟨h.restricted, h.not_forbidden, h.allowed⟩, fun h => ⟨h.1, h.2.1, h.2.2⟩⟩

theorem Lists.listed {pick : Restriction → Option String} {restrictions : List Restriction}
    {catalogue country : String} (lists : Lists pick restrictions catalogue country) :
    Listed pick restrictions catalogue := by
  obtain ⟨r, member, named, list, picked, _⟩ := lists
  exact ⟨r, member, named, by rw [picked]; simp⟩

/-- These lists are codes one after the other. -/
def Coded (pick : Restriction → Option String) (restrictions : List Restriction) : Prop :=
  ∀ r ∈ restrictions, ∀ list, pick r = some list → ∃ codes, Spells list codes

variable {pick : Restriction → Option String} {restrictions others : List Restriction}
  {country catalogue : String}

theorem mem_named {r : Restriction} :
    r ∈ restrictions.filter (fun r => r.catalogue_str.contains catalogue) ↔
      r ∈ restrictions ∧ catalogue ∈ r.catalogue_str := by
  rw [List.mem_filter, List.contains_iff_mem]

theorem any_named :
    (restrictions.filter fun r => r.catalogue_str.contains catalogue).any (fun r => (pick r).isSome) =
      true ↔ Listed pick restrictions catalogue := by
  simp only [List.any_eq_true, mem_named, Listed, Option.isSome_iff_ne_none, and_assoc]

/-- The scan of a gathered list finds what its lists have. -/
theorem contains_gathered (coded : Coded pick restrictions) (country catalogue : String) :
    ∃ found, countrylist_contains (gather pick
        (restrictions.filter fun r => r.catalogue_str.contains catalogue)) country = some found ∧
      (found = true ↔ Lists pick restrictions catalogue country) := by
  obtain ⟨codes, spelled, listed⟩ := gather_spelled fun r named =>
    coded r (mem_named.mp named).1
  refine ⟨_, countrylist_contains_spelled spelled country, ?_⟩
  rw [decide_eq_true_iff, listed country]
  simp only [mem_named, Lists, and_assoc]

theorem parse_restrictions_iff (forbidden : Coded (·.countries_forbidden) restrictions)
    (allowed : Coded (·.countries_allowed) restrictions) (country catalogue : String) :
    ∃ available, parse_restrictions restrictions country catalogue = some available ∧
      (available = true ↔ Available restrictions country catalogue) := by
  obtain ⟨bad, scanned, bad_iff⟩ := contains_gathered forbidden country catalogue
  obtain ⟨good, searched, good_iff⟩ := contains_gathered allowed country catalogue
  have unlisted : Lists (·.countries_forbidden) restrictions catalogue country →
      Listed (·.countries_forbidden) restrictions catalogue := Lists.listed
  rw [available_iff, ← bad_iff, ← good_iff]
  rw [← bad_iff] at unlisted
  simp only [← any_named] at unlisted ⊢
  simp only [parse_restrictions, collect_eq, Restricted.available, scanned, searched,
    Restriction.has_countries_forbidden, Restriction.has_countries_allowed]
  generalize (restrictions.filter fun r => r.catalogue_str.contains catalogue).any
    (fun r => r.countries_forbidden.isSome) = has_forbidden at *
  generalize (restrictions.filter fun r => r.catalogue_str.contains catalogue).any
    (fun r => r.countries_allowed.isSome) = has_allowed at *
  cases has_forbidden <;> cases has_allowed <;> cases bad <;> cases good <;> simp at unlisted ⊢

/-- The same countries are listed, in whatever order and however they are spread. -/
structure Alike (pick : Restriction → Option String) (others restrictions : List Restriction)
    (catalogue : String) : Prop where
  listed : Listed pick others catalogue ↔ Listed pick restrictions catalogue
  lists : ∀ country, Lists pick others catalogue country ↔ Lists pick restrictions catalogue country

theorem Alike.of_perm (same : others.Perm restrictions) : Alike pick others restrictions catalogue :=
  ⟨by simp only [Listed, same.mem_iff], fun _ => by simp only [Lists, same.mem_iff]⟩

theorem Coded.of_perm (coded : Coded pick restrictions) (same : others.Perm restrictions) :
    Coded pick others := by
  intro r member
  exact coded r (same.mem_iff.mp member)

/-- A track is available exactly where the sets of countries of its restrictions say so,
and these sets are all that matters. -/
theorem availability_follows_sets (forbidden : Coded (·.countries_forbidden) restrictions)
    (allowed : Coded (·.countries_allowed) restrictions) (country catalogue : String) :
    (∃ available, parse_restrictions restrictions country catalogue = some available ∧
      (available = true ↔ Available restrictions country catalogue)) ∧
    (∀ others : List Restriction, others.Perm restrictions →
      parse_restrictions others country catalogue =
        parse_restrictions restrictions country catalogue) ∧
    ∀ others, Coded (·.countries_forbidden) others → Coded (·.countries_allowed) others →
      Alike (·.countries_forbidden) others restrictions catalogue →
      Alike (·.countries_allowed) others restrictions catalogue →
      parse_restrictions others country catalogue =
        parse_restrictions restrictions country catalogue := by
  have here := parse_restrictions_iff forbidden allowed country catalogue
  have alike : ∀ others, Coded (·.countries_forbidden) others → Coded (·.countries_allowed) others →
      Alike (·.countries_forbidden) others restrictions catalogue →
      Alike (·.countries_allowed) others restrictions catalogue →
      parse_restrictions others country catalogue =
        parse_restrictions restrictions country catalogue := by
    intro others coded coded' same same'
    obtain ⟨available, parsed, meaning⟩ := here
    obtain ⟨available', parsed', meaning'⟩ := parse_restrictions_iff coded coded' country catalogue
    have agree : available' = available := by
      rw [Bool.eq_iff_iff, meaning', meaning, available_iff, available_iff, same.listed, same'.listed,
        same.lists, same'.lists]
    rw [parsed, parsed', agree]
  refine ⟨here, ?_, alike⟩
  intro others same
  exact alike others (forbidden.of_perm same) (allowed.of_perm same) (.of_perm same) (.of_perm same)

/-! Lists of two restrictions for one catalogue, and of one for another. -/

def three_restrictions : List Restriction :=
  [⟨none, some "FRGB", ["free", "premium"]⟩, ⟨some "USDE", none, ["premium"]⟩,
    ⟨some "", some "GB", ["free"]⟩]

theorem three_restrictions_available : ∃ available,
    parse_restrictions three_restrictions "US" "premium" = some available ∧
      (available = true ↔ Available three_restrictions "US" "premium") := by
  refine (availability_follows_sets ?_ ?_ "US" "premium").1
  · simp only [three_restrictions, Coded, List.forall_mem_cons]
    refine ⟨?_, ?_, ?_, by simp⟩
    · rintro list ⟨⟩
      exact ⟨["FR", "GB"], rfl, by decide⟩
    · rintro list ⟨⟩
    · rintro list ⟨⟩
      exact ⟨["GB"], rfl, by decide⟩
  · simp only [three_restrictions, Coded, List.forall_mem_cons]
    refine ⟨?_, ?_, ?_, by simp⟩
    · rintro list ⟨⟩
    · rintro list ⟨⟩
      exact ⟨["US", "DE"], rfl, by decide⟩
    · rintro list ⟨⟩
      exact ⟨[], rfl, by simp⟩

example : parse_restrictions three_restrictions "US" "premium" = some true := by decide

/-! Lists of countries whose length nothing checks. -/

theorem searched_for_all_iff {list : String} (ascii : ∀ c ∈ list.toList, c.toNat < 128) :
    (∀ country, countrylist_contains list country ≠ none) ↔ 2 ∣ list.length := by
  simp only [countrylist_contains_returns]
  rw [← String.length_toList, ← StrChunks.pieces_iff ascii]
  constructor
  · intro readable
    -- No piece is the empty country, so the search for it comes to the end.
    obtain ⟨chunks, rest, whole, sized, reason⟩ := readable ""
    rcases reason with rfl | ⟨chunk, member, found⟩
    · exact ⟨chunks, by rw [whole, List.append_nil], sized⟩
    · rw [of_decide_eq_true found] at member
      cases sized _ member
  · rintro ⟨chunks, whole, sized⟩ country
    exact ⟨chunks, [], by rw [whole, List.append_nil], sized, .inl rfl⟩

/-- A list of ASCII characters is covered by pieces of each size that divides its length,
and can be searched for every country if that is even. -/
theorem countries_covered_iff {list : String} (ascii : ∀ c ∈ list.toList, c.toNat < 128) :
    (∀ size, 0 < size → (StrChunks.Covers size list.toList ↔ size ∣ list.length)) ∧
    ((∀ country, countrylist_contains list country ≠ none) ↔ 2 ∣ list.length) := by
  refine ⟨?_, searched_for_all_iff ascii⟩
  intro size positive
  rw [StrChunks.covers_iff positive ascii, String.length_toList]

theorem countries_covered_iff_four :
    (∀ size, 0 < size → (StrChunks.Covers size "GBUS".toList ↔ size ∣ "GBUS".length)) ∧
    ((∀ country, countrylist_contains "GBUS" country ≠ none) ↔ 2 ∣ "GBUS".length) :=
  countries_covered_iff (by simp)

/-- The last of three characters is a panic, unless a match comes before it. -/
theorem three_not_covered : ¬ StrChunks.Covers 2 "GBU".toList ∧
    countrylist_contains "GBU" "US" = none ∧ countrylist_contains "GBU" "GB" = some true := by
  refine ⟨?_, rfl, rfl⟩
  rintro ⟨chunks, yields, -⟩
  cases yields with
  | done ended => cases ended
  | piece here later =>
    cases here
    cases later with
    | done ended => cases ended
    | piece here later => cases here

end ConnectScrobbler
