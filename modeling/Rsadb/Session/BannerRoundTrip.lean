import Rsadb.Session.Banner
import Rsadb.Library.OrderedMap
import Rsadb.Library.Words

/-! A banner that is written out and parsed again. -/
namespace Rsadb.Banner

/-- What a parsed banner is like: no text in it holds a delimiter that would end it. -/
structure WellFormed (banner : Banner) : Prop where
  kind : ¬ascii "::" <:+: banner.kind
  keys : ∀ key ∈ banner.properties, 0x3D ∉ key ∧ 0x3B ∉ key ∧ key ≠ ascii "features"
  values : ∀ key value : Bytes, banner.properties[key]? = some value → 0x3B ∉ value
  features : ∀ feature ∈ banner.features, feature ≠ [] ∧ 0x2C ∉ feature ∧ 0x3B ∉ feature

/-- The pair sets the feature list. -/
def SetsFeatures (pair : Bytes) : Prop := pair = ascii "features" ∨ ascii "features=" <+: pair

/-- The text is a kind without a separator behind it, and ends in half of one. -/
def KindEndsInColon (text : Bytes) : Prop := ¬ascii "::" <:+: text ∧ ascii ":" <:+ text

/-- The last of the features that the pair lists ends in a NUL. -/
def ListsNulLast (pair : Bytes) : Prop :=
  ∃ features commas : Bytes,
    pair = ascii "features=" ++ (features ++ 0 :: commas) ∧ ∀ comma ∈ commas, comma = 0x2C

/-- The last list of features in a text ends in a feature that ends in a NUL. -/
def FeatureEndsInNul (text : Bytes) : Prop :=
  ∃ (kind rest : Bytes) (earlier : List Bytes) (pair : Bytes) (later : List Bytes),
    text = kind ++ (ascii "::" ++ rest) ∧ ¬ascii "::" <:+: kind ++ ascii ":" ∧
    rest.splitOn 0x3B = earlier ++ pair :: later ∧ ListsNulLast pair ∧
    ∀ other ∈ later, ¬SetsFeatures other

section

variable {banner : Banner} {text pair : Bytes}

/-- A pair that is written like this is read as key and value. -/
theorem addPair_assign (banner : Banner) {key : Bytes} (hKey : 0x3D ∉ key) (value : Bytes) :
    addPair banner (key ++ 0x3D :: value) =
      if key = ascii "features" then { banner with features := Text.words 0x2C value }
      else { banner with properties := banner.properties.insert key value } := by
  have hSplit : Text.splitOnce (ascii "=") (key ++ 0x3D :: value) = some (key, value) :=
    Text.splitOnce_append hKey value
  rw [addPair, hSplit]
  rfl

/-- What a pair does is told by its key, which is the whole pair when nothing is assigned. -/
theorem addPair_cases (banner : Banner) (pair : Bytes) : ∃ key value : Bytes,
    0x3D ∉ key ∧ (pair = key ∧ value = [] ∨ pair = key ++ 0x3D :: value) ∧
    addPair banner pair =
      if key = ascii "features" then { banner with features := Text.words 0x2C value }
      else { banner with properties := banner.properties.insert key value } := by
  cases hSplit : Text.splitOnce (ascii "=") pair with
  | none =>
      have hKey := Text.splitOnce_singleton_eq_none_iff.mp hSplit
      refine ⟨pair, [], hKey, .inl ⟨rfl, rfl⟩, ?_⟩
      rw [addPair, hSplit]
      rfl
  | some parts =>
      obtain ⟨key, value⟩ := parts
      obtain ⟨hPair, hKey⟩ := Text.splitOnce_singleton_eq_some_iff.mp hSplit
      rw [hPair]
      exact ⟨key, value, hKey, .inr rfl, addPair_assign banner hKey value⟩

theorem addPair_features (banner : Banner) (list : Bytes) :
    addPair banner (ascii "features=" ++ list) = { banner with features := Text.words 0x2C list } := by
  have hPair : ascii "features=" ++ list = ascii "features" ++ 0x3D :: list := rfl
  rw [hPair, addPair_assign banner (by decide), if_pos rfl]

theorem addPair_kind (banner : Banner) (pair : Bytes) : (addPair banner pair).kind = banner.kind := by
  obtain ⟨key, value, -, -, hAdd⟩ := addPair_cases banner pair
  rw [hAdd]
  split_ifs
  · rfl
  · rfl

theorem foldl_kind (banner : Banner) (pairs : List Bytes) :
    (pairs.foldl addPair banner).kind = banner.kind := by
  induction pairs generalizing banner with
  | nil => rfl
  | cons pair pairs ih => rw [List.foldl_cons, ih, addPair_kind]

theorem wellFormed_addPair (h : WellFormed banner) (hPair : 0x3B ∉ pair) :
    WellFormed (addPair banner pair) := by
  obtain ⟨key, value, hKey, hParts, hAdd⟩ := addPair_cases banner pair
  obtain ⟨hPlainKey, hPlainValue⟩ : 0x3B ∉ key ∧ 0x3B ∉ value := by
    rcases hParts with ⟨rfl, rfl⟩ | rfl
    · exact ⟨hPair, List.not_mem_nil⟩
    · exact ⟨fun hMem => hPair (List.mem_append_left _ hMem),
        fun hMem => hPair (List.mem_append_right _ (List.mem_cons_of_mem _ hMem))⟩
  rw [hAdd]
  split_ifs with hFeatures
  · refine ⟨h.kind, h.keys, h.values, fun feature hMem => ?_⟩
    refine ⟨Text.word_ne_nil hMem, Text.word_plain hMem, fun hDelimiter => ?_⟩
    have hInside : 0x3B ∈ (Text.words 0x2C value).flatten := List.mem_flatten_of_mem hMem hDelimiter
    rw [Text.flatten_words] at hInside
    exact hPlainValue (List.mem_of_mem_filter hInside)
  · constructor
    · exact h.kind
    · intro name hMem
      rcases Std.ExtTreeMap.mem_insert.mp hMem with hSame | hOld
      · rw [← Std.compare_eq_iff_eq.mp hSame]
        exact ⟨hKey, hPlainKey, hFeatures⟩
      · exact h.keys name hOld
    · intro name found hFound
      rw [Std.ExtTreeMap.getElem?_insert] at hFound
      split_ifs at hFound
      · cases hFound
        exact hPlainValue
      · exact h.values name found hFound
    · exact h.features

theorem wellFormed_foldl {pairs : List Bytes} (h : WellFormed banner)
    (hPairs : ∀ pair ∈ pairs, 0x3B ∉ pair) : WellFormed (pairs.foldl addPair banner) := by
  induction pairs generalizing banner with
  | nil => exact h
  | cons pair pairs ih =>
      obtain ⟨hPair, hOthers⟩ := List.forall_mem_cons.mp hPairs
      exact ih (wellFormed_addPair h hPair) hOthers

/-- The two ways a text is taken apart. -/
theorem parse_none (h : ¬ascii "::" <:+: Text.trimEnd 0 text) :
    parse text = ⟨Text.trimEnd 0 text, ∅, []⟩ := by
  have hSplit : Text.splitOnce (ascii "::") (Text.trimEnd 0 text) = none :=
    (Text.splitOnce_eq_none_iff (by decide)).mpr h
  rw [parse, hSplit]
  rfl

theorem parse_some {kind rest : Bytes} (hText : Text.trimEnd 0 text = kind ++ (ascii "::" ++ rest))
    (hKind : ¬ascii "::" <:+: kind ++ ascii ":") :
    parse text = (Text.words 0x3B rest).foldl addPair ⟨kind, ∅, []⟩ := by
  have hSplit : Text.splitOnce (ascii "::") (Text.trimEnd 0 text) = some (kind, rest) :=
    (Text.splitOnce_eq_some_iff (by decide)).mpr ⟨hText, hKind⟩
  rw [parse, hSplit]
  rfl

/-- A text with a separator has a first one. -/
theorem exists_split (h : ascii "::" <:+: text) :
    ∃ kind rest, text = kind ++ (ascii "::" ++ rest) ∧ ¬ascii "::" <:+: kind ++ ascii ":" := by
  cases hSplit : Text.splitOnce (ascii "::") text with
  | none => exact absurd h ((Text.splitOnce_eq_none_iff (by decide)).mp hSplit)
  | some parts => exact ⟨parts.1, parts.2, (Text.splitOnce_eq_some_iff (by decide)).mp hSplit⟩

theorem wellFormed_parse (text : Bytes) : WellFormed (parse text) := by
  have hStart {kind : Bytes} (hKind : ¬ascii "::" <:+: kind) : WellFormed ⟨kind, ∅, []⟩ := by
    constructor
    · exact hKind
    · intro key hMem
      exact absurd hMem Std.ExtTreeMap.not_mem_empty
    · intro key value hFound
      rw [Std.ExtTreeMap.getElem?_empty] at hFound
      cases hFound
    · intro feature hMem
      exact absurd hMem List.not_mem_nil
  by_cases hSplit : ascii "::" <:+: Text.trimEnd 0 text
  · obtain ⟨kind, rest, hText, hKind⟩ := exists_split hSplit
    rw [parse_some hText hKind]
    apply wellFormed_foldl
    · exact hStart fun hInfix => hKind (hInfix.trans (List.prefix_append _ _).isInfix)
    · exact fun pair hMem => Text.word_plain hMem
  · rw [parse_none hSplit]
    exact hStart hSplit

/-- What is written of some properties. -/
def written (entries : List (Bytes × Bytes)) : Bytes :=
  (entries.map fun (k, v) => k ++ ascii "=" ++ v ++ ascii ";").flatten

theorem written_cons (key value : Bytes) (entries : List (Bytes × Bytes)) :
    written ((key, value) :: entries) = key ++ 0x3D :: value ++ 0x3B :: written entries := by
  calc written ((key, value) :: entries)
      = key ++ ascii "=" ++ value ++ ascii ";" ++ written entries := rfl
    _ = key ++ (ascii "=" ++ value) ++ (ascii ";" ++ written entries) := by simp only [List.append_assoc]

/-- Every property is one word of what is written. -/
theorem words_written {entries : List (Bytes × Bytes)}
    (h : ∀ entry ∈ entries, 0x3B ∉ entry.1 ∧ 0x3B ∉ entry.2) (rest : Bytes) : Text.words 0x3B (written entries ++ rest) =
      (entries.map fun entry => entry.1 ++ 0x3D :: entry.2) ++ Text.words 0x3B rest := by
  induction entries with
  | nil => rfl
  | cons entry entries ih =>
      obtain ⟨key, value⟩ := entry
      obtain ⟨⟨hKey, hValue⟩, hOthers⟩ := List.forall_mem_cons.mp h
      have hPlain : 0x3B ∉ key ++ 0x3D :: value := by simpa [hKey] using hValue
      rw [written_cons, List.append_assoc, List.cons_append, Text.words_append_cons,
        Text.words_of_not_mem hPlain, if_neg (by simp), ih hOthers]
      rfl

theorem not_suffix_written (entries : List (Bytes × Bytes)) : ¬[0] <:+ written entries := by
  induction entries with
  | nil => decide
  | cons entry entries ih =>
      obtain ⟨key, value⟩ := entry
      have hEntry : ¬[0] <:+ key ++ 0x3D :: value ++ [0x3B] := by
        rw [List.singleton_suffix_iff_getLast?_eq_some, List.getLast?_concat]
        decide
      rw [written_cons, List.append_cons (key ++ 0x3D :: value)]
      exact Text.not_suffix_append hEntry ih

theorem foldl_written {entries : List (Bytes × Bytes)}
    (h : ∀ entry ∈ entries, 0x3D ∉ entry.1 ∧ entry.1 ≠ ascii "features") :
    (entries.map fun entry => entry.1 ++ 0x3D :: entry.2).foldl addPair banner =
      { banner with properties := OrderedMap.enter banner.properties entries } := by
  induction entries generalizing banner with
  | nil => rfl
  | cons entry entries ih =>
      obtain ⟨⟨hKey, hOther⟩, hOthers⟩ := List.forall_mem_cons.mp h
      rw [List.map_cons, List.foldl_cons, addPair_assign banner hKey, if_neg hOther, ih hOthers]
      rfl

/-- The properties in the order of their keys, as they are written. -/
theorem entries_plain (h : WellFormed banner) : ∀ entry ∈ banner.properties.toList,
    0x3D ∉ entry.1 ∧ 0x3B ∉ entry.1 ∧ entry.1 ≠ ascii "features" ∧ 0x3B ∉ entry.2 := by
  intro entry hMem
  have hFound := Std.ExtTreeMap.mem_toList_iff_getElem?_eq_some.mp hMem
  have hKey : entry.1 ∈ banner.properties := by
    rw [Std.ExtTreeMap.mem_iff_isSome_getElem?, hFound]
    rfl
  obtain ⟨hAssign, hDelimiter, hOther⟩ := h.keys entry.1 hKey
  exact ⟨hAssign, hDelimiter, hOther, h.values entry.1 entry.2 hFound⟩

/-- Joined features do not end the pair that they are the value of. -/
theorem list_plain (h : WellFormed banner) : 0x3B ∉ List.intercalate [0x2C] banner.features := by
  intro hMem
  have hRead : Text.words 0x2C (List.intercalate [0x2C] banner.features) = banner.features := by
    apply Text.words_intercalate
    · exact fun feature hFeature => (h.features feature hFeature).2.1
    · exact fun feature hFeature => (h.features feature hFeature).1
  have hInside : 0x3B ∈ (List.intercalate [0x2C] banner.features).filter (· ≠ 0x2C) :=
    List.mem_filter.mpr ⟨hMem, by decide⟩
  rw [← Text.flatten_words, hRead] at hInside
  obtain ⟨feature, hFeature, hDelimiter⟩ := List.mem_flatten.mp hInside
  exact (h.features feature hFeature).2.2 hDelimiter

theorem foldl_list {list : Bytes} (h : 0x3B ∉ list) :
    (Text.words 0x3B (ascii "features=" ++ list)).foldl addPair banner =
      { banner with features := Text.words 0x2C list } := by
  have hPlain : 0x3B ∉ ascii "features=" ++ list := by
    intro hMem
    rcases List.mem_append.mp hMem with hKey | hValue
    · exact absurd hKey (by decide)
    · exact h hValue
  have hSome : ascii "features=" ++ list ≠ [] := List.append_ne_nil_of_left_ne_nil (by decide) list
  rw [Text.words_of_not_mem hPlain, if_neg hSome, List.foldl_cons, List.foldl_nil, addPair_features]

/-- Trimming a written banner takes something off the feature list only. -/
theorem trimEnd_toWire (banner : Banner) : Text.trimEnd 0 banner.toWire =
    banner.kind ++ (ascii "::" ++ (written banner.properties.toList ++
      if banner.features = [] then []
      else ascii "features=" ++ Text.trimEnd 0 (List.intercalate [0x2C] banner.features))) := by
  have hFront : ¬[0] <:+ banner.kind ++ (ascii "::" ++ written banner.properties.toList) := by
    have hKind : ¬[0] <:+ banner.kind ++ ascii "::" := by
      have hLast : (ascii "::").getLast? = some 0x3A := by decide
      simp [List.singleton_suffix_iff_getLast?_eq_some, hLast]
    rw [← List.append_assoc]
    exact Text.not_suffix_append hKind (not_suffix_written _)
  have hWire : banner.toWire = banner.kind ++ (ascii "::" ++ written banner.properties.toList) ++
      if banner.features = [] then [] else ascii "features=" ++ List.intercalate [0x2C] banner.features := by
    rw [toWire, ← List.append_assoc]
    rfl
  rw [hWire, Text.trimEnd_append hFront]
  split_ifs with hNone
  · simp only [List.append_assoc]
    rfl
  · rw [Text.trimEnd_append (by decide)]
    simp only [List.append_assoc]

/-- A written banner is read as it was, but for what is trimmed off the features. -/
theorem parse_toWire (h : WellFormed banner) (hKind : ¬ascii "::" <:+: banner.kind ++ ascii ":") :
    parse banner.toWire = { banner with
      features := Text.words 0x2C (Text.trimEnd 0 (List.intercalate [0x2C] banner.features)) } := by
  have hEntries := entries_plain h
  rw [parse_some (trimEnd_toWire banner) hKind,
    words_written fun entry hMem => ⟨(hEntries entry hMem).2.1, (hEntries entry hMem).2.2.2⟩, List.foldl_append,
    foldl_written fun entry hMem => ⟨(hEntries entry hMem).1, (hEntries entry hMem).2.2.1⟩,
    OrderedMap.enter_perm (List.Perm.refl _)]
  split_ifs with hNone
  · have hEmpty : Text.words 0x2C (Text.trimEnd 0 (List.intercalate [0x2C] banner.features)) = [] := by
      rw [hNone]
      exact Text.words_nil
    rw [Text.words_nil, List.foldl_nil, hEmpty]
  · rw [foldl_list fun hMem => list_plain h ((Text.trimEnd_start _).subset hMem)]

theorem parse_toWire_kind (hKind : ascii "::" <:+: banner.kind ++ ascii ":") :
    (parse banner.toWire).kind ≠ banner.kind := by
  have hSplit : ascii "::" <:+: Text.trimEnd 0 banner.toWire := by
    rw [trimEnd_toWire]
    exact List.infix_append' _ _ _
  obtain ⟨kind, rest, hText, hFirst⟩ := exists_split hSplit
  rw [parse_some hText hFirst, foldl_kind]
  rintro rfl
  exact hFirst hKind

/-- The banners that are read back from what is written. -/
theorem parse_toWire_iff (h : WellFormed banner) : parse banner.toWire = banner ↔
    ¬ascii "::" <:+: banner.kind ++ ascii ":" ∧ ¬[0] <:+ banner.features.flatten := by
  by_cases hKind : ascii "::" <:+: banner.kind ++ ascii ":"
  · constructor
    · intro hSame
      exact absurd (congrArg Banner.kind hSame) (parse_toWire_kind hKind)
    · intro hBoth
      exact absurd hKind hBoth.1
  · have hFeatures := @Text.words_trimEnd_iff _ _ 0x2C banner.features 0 (by decide)
      (fun feature hMem => (h.features feature hMem).2.1) (fun feature hMem => (h.features feature hMem).1)
    rw [parse_toWire h hKind, ← hFeatures]
    constructor
    · intro hSame
      exact ⟨hKind, congrArg Banner.features hSame⟩
    · rintro ⟨-, hSame⟩
      rw [hSame]

theorem setsFeatures_of_listsNulLast (h : ListsNulLast pair) : SetsFeatures pair := by
  obtain ⟨features, commas, rfl, -⟩ := h
  exact .inr (List.prefix_append _ _)

theorem addPair_other (h : ¬SetsFeatures pair) : (addPair banner pair).features = banner.features := by
  obtain ⟨key, value, -, hParts, hAdd⟩ := addPair_cases banner pair
  rw [hAdd, if_neg]
  rintro rfl
  rcases hParts with ⟨rfl, -⟩ | rfl
  · exact h (.inl rfl)
  · exact h (.inr ⟨value, rfl⟩)

theorem listsNulLast_iff (list : Bytes) :
    ListsNulLast (ascii "features=" ++ list) ↔ [0] <:+ (Text.words 0x2C list).flatten := by
  rw [Text.suffix_flatten_words_iff (by decide)]
  constructor
  · rintro ⟨features, commas, hList, hCommas⟩
    exact ⟨features, 0, commas, List.append_cancel_left hList, rfl, hCommas⟩
  · rintro ⟨features, nul, commas, rfl, rfl, hCommas⟩
    exact ⟨features, commas, rfl, hCommas⟩

theorem listsNulLast_or_iff (h : ¬SetsFeatures pair) (p : Prop) :
    ListsNulLast pair ∨ ¬SetsFeatures pair ∧ p ↔ p := by
  constructor
  · rintro (hLists | ⟨-, hHolds⟩)
    · exact absurd (setsFeatures_of_listsNulLast hLists) h
    · exact hHolds
  · exact fun hHolds => .inr ⟨h, hHolds⟩

/-- What one more pair does to the end of the feature list. -/
theorem addPair_suffix_iff (banner : Banner) (pair : Bytes) :
    [0] <:+ (addPair banner pair).features.flatten ↔
      ListsNulLast pair ∨ ¬SetsFeatures pair ∧ [0] <:+ banner.features.flatten := by
  by_cases hPair : SetsFeatures pair
  · rw [eq_false (not_not_intro hPair), false_and, or_false]
    rcases hPair with rfl | ⟨list, rfl⟩
    · have hNone : (addPair banner (ascii "features")).features = [] := rfl
      rw [hNone]
      constructor
      · intro hNul
        simp at hNul
      · rintro ⟨features, commas, hPair, -⟩
        simpa [ascii] using congrArg List.length hPair
    · rw [addPair_features, listsNulLast_iff]
  · rw [addPair_other hPair, listsNulLast_or_iff hPair]

/-- Of the pairs that set the feature list the last one counts. -/
theorem features_suffix_iff (kind : Bytes) (pieces : List Bytes) :
    [0] <:+ ((pieces.filter (· ≠ [])).foldl addPair ⟨kind, ∅, []⟩).features.flatten ↔
      ∃ earlier pair later, pieces = earlier ++ pair :: later ∧ ListsNulLast pair ∧
        ∀ other ∈ later, ¬SetsFeatures other := by
  induction pieces using List.reverseRecOn with
  | nil => simp
  | append_singleton pieces last ih =>
      rw [Text.exists_last_concat_iff, ← ih, List.filter_append, List.foldl_append]
      by_cases hLast : last = []
      · have hNothing : ¬SetsFeatures [] := by
          rintro (hSame | hStart)
          · exact absurd hSame (by decide)
          · exact absurd hStart (by decide)
        rw [hLast, List.filter_cons_of_neg (by simp), List.filter_nil, List.foldl_nil,
          listsNulLast_or_iff hNothing]
      · rw [List.filter_cons_of_pos (by simpa using hLast), List.filter_nil, List.foldl_cons, List.foldl_nil,
          addPair_suffix_iff]

/-- The feature list of a parsed text ends in a NUL. -/
theorem parse_features_suffix_iff (text : Bytes) :
    [0] <:+ (parse text).features.flatten ↔ FeatureEndsInNul (Text.trimEnd 0 text) := by
  constructor
  · intro hNul
    by_cases hSplit : ascii "::" <:+: Text.trimEnd 0 text
    · obtain ⟨kind, rest, hText, hKind⟩ := exists_split hSplit
      rw [parse_some hText hKind] at hNul
      obtain ⟨earlier, pair, later, hPieces, hPair, hLater⟩ := (features_suffix_iff kind _).mp hNul
      exact ⟨kind, rest, earlier, pair, later, hText, hKind, hPieces, hPair, hLater⟩
    · rw [parse_none hSplit] at hNul
      simp at hNul
  · rintro ⟨kind, rest, earlier, pair, later, hText, hKind, hPieces, hPair, hLater⟩
    rw [parse_some hText hKind]
    exact (features_suffix_iff kind _).mpr ⟨earlier, pair, later, hPieces, hPair, hLater⟩

/-- The kind of a parsed text runs into the separator behind it. -/
theorem parse_kind_infix_iff (text : Bytes) :
    ascii "::" <:+: (parse text).kind ++ ascii ":" ↔ KindEndsInColon (Text.trimEnd 0 text) := by
  constructor
  · intro hInfix
    by_cases hSplit : ascii "::" <:+: Text.trimEnd 0 text
    · obtain ⟨kind, rest, hText, hKind⟩ := exists_split hSplit
      rw [parse_some hText hKind, foldl_kind] at hInfix
      exact absurd hInfix hKind
    · rw [parse_none hSplit] at hInfix
      rcases List.infix_concat_iff.mp hInfix with hEnd | hBefore
      · obtain ⟨front, hFront⟩ := hEnd
        have hText : front ++ ascii ":" ++ ascii ":" = Text.trimEnd 0 text ++ ascii ":" := by
          rw [List.append_assoc]
          exact hFront
        exact ⟨hSplit, front, List.append_cancel_right hText⟩
      · exact absurd hBefore hSplit
  · rintro ⟨hSplit, front, hText⟩
    rw [parse_none hSplit, ← hText, List.append_assoc]
    exact (List.suffix_append front (ascii "::")).isInfix

end

/-- A banner survives being written out and parsed again unless its kind ends in a colon
or its features end in a NUL. -/
theorem parse_toWire_parse_iff (text : Bytes) : parse (parse text).toWire = parse text ↔
    ¬KindEndsInColon (Text.trimEnd 0 text) ∧ ¬FeatureEndsInNul (Text.trimEnd 0 text) := by
  rw [parse_toWire_iff (wellFormed_parse text), parse_kind_infix_iff, parse_features_suffix_iff]

/-- A kind that ends in a colon, and a feature that ends in a NUL. -/
theorem parse_toWire_parse_fails :
    parse (parse (ascii "device:")).toWire ≠ parse (ascii "device:") ∧
      parse (parse (ascii "device::features=a\x00;x")).toWire ≠ parse (ascii "device::features=a\x00;x") := by
  decide

end Rsadb.Banner
