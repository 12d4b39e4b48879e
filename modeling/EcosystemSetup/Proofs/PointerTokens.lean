import EcosystemSetup.Patch.Pointer
import EcosystemSetup.Proofs.Lists

/-!
# Pointers and their segments

A pointer is read by splitting it at its slashes and replacing, in each token, first every `~1` by a
slash and then every `~0` by a tilde (RFC 6901). Main statement: this gives back the segments that a
pointer was made of, whatever characters they hold, so different lists of segments have different
pointers. A reader that refuses any other tilde reads the pointer of some segments as these, and no other
text.

The two replacements of each direction have an order. A slash that is escaped before the tildes would
have the tilde of its escape replaced as well, and a tilde that is read before the slashes would be taken
for the start of an escape.
-/

namespace EcosystemSetup.Pointer

variable {token segment : List Char} {segments : List (List Char)}

/-! ## Tokens -/

theorem escape_cons (c : Char) (rest : List Char) :
    escape (c :: rest) = escapeChar c ++ escape rest := rfl

/-- A text with another one in place of every occurrence of a character. -/
def replaced (c : Char) (replacement text : List Char) : List Char :=
  text.flatMap fun d => if d = c then replacement else [d]

/-- A segment is escaped by replacing its tildes and then its slashes. -/
theorem escape_eq_replaced (segment : List Char) :
    escape segment = replaced '/' ['~', '1'] (replaced '~' ['~', '0'] segment) := by
  induction segment with
  | nil => rfl
  | cons c rest ih =>
    have hchar : escapeChar c = replaced '/' ['~', '1'] (replaced '~' ['~', '0'] [c]) := by
      unfold escapeChar replaced
      by_cases htilde : c = '~'
      · simp [htilde]
      · by_cases hslash : c = '/'
        · simp [hslash]
        · simp [htilde, hslash]
    rw [escape_cons, ih, hchar]
    simp [replaced]

example : replaced '~' ['~', '0'] (replaced '/' ['~', '1'] ['/']) = ['~', '0', '1'] := by decide

theorem slash_not_mem_escape (segment : List Char) : '/' ∉ escape segment := by
  unfold escape
  rw [List.mem_flatMap]
  rintro ⟨c, -, hc⟩
  unfold escapeChar at hc
  split at hc
  · simp at hc
  · split at hc
    · simp at hc
    · rename_i hslash
      exact hslash (List.mem_singleton.mp hc).symm

/-- Behind every tilde of an escaped segment stands one of the two numbers. -/
theorem head?_of_escape {before after : List Char} (h : escape segment = before ++ '~' :: after) :
    after.head? = some '0' ∨ after.head? = some '1' := by
  induction segment generalizing before with
  | nil => simp [escape] at h
  | cons c rest ih =>
    rw [escape_cons] at h
    rcases Lists.split_of_append_eq h with ⟨more, hchar⟩ | ⟨skipped, -, hrest⟩
    · -- the tilde of the first character's escape
      rw [hchar, List.append_assoc, List.cons_append] at h
      have hafter : after = more ++ escape rest := by simpa using h.symm
      have hmore : more = ['0'] ∨ more = ['1'] := by
        unfold escapeChar at hchar
        rcases before with _ | ⟨x, _ | ⟨y, before⟩⟩
        · grind
        · grind
        · grind
      rcases hmore with rfl | rfl
      · exact Or.inl (hafter ▸ rfl)
      · exact Or.inr (hafter ▸ rfl)
    · exact ih hrest

/-- Escaping is undone by the reader of tokens. -/
theorem unescape_escape (segment : List Char) : unescape (escape segment) = some segment := by
  induction segment with
  | nil => rfl
  | cons c rest ih =>
    rw [escape_cons, escapeChar]
    split
    · rename_i htilde
      simp [unescape, ih, htilde]
    · split
      · rename_i hslash
        simp [unescape, ih, hslash]
      · rename_i htilde _
        rw [List.singleton_append, unescape, if_neg htilde, ih]
        · rfl
        · simp [htilde]
        · simp [htilde]

/-- What the reader of tokens accepts without a slash is the escaped form of what it reads. -/
theorem escape_of_unescape (h : unescape token = some segment) (hslash : '/' ∉ token) :
    escape segment = token := by
  fun_induction unescape token generalizing segment with
  | case1 =>
    cases h
    rfl
  | case2 rest ih =>
    obtain ⟨s, hs, rfl⟩ := Option.map_eq_some_iff.mp h
    have hrest : '/' ∉ rest := by simp_all
    exact congrArg (['~', '0'] ++ ·) (ih hs hrest)
  | case3 rest ih =>
    obtain ⟨s, hs, rfl⟩ := Option.map_eq_some_iff.mp h
    have hrest : '/' ∉ rest := by simp_all
    exact congrArg (['~', '1'] ++ ·) (ih hs hrest)
  | case4 => cases h
  | case5 c rest _ _ htilde ih =>
    obtain ⟨s, hs, rfl⟩ := Option.map_eq_some_iff.mp h
    rw [List.mem_cons, not_or] at hslash
    have hchar : escapeChar c = [c] := by simp [escapeChar, htilde, Ne.symm hslash.1]
    rw [escape_cons, hchar, ih hs hslash.2]
    rfl

/-! ## Reading in two passes -/

/-- A text with a character in place of every occurrence of two others, from left to right. -/
def replacedPair (a b c : Char) : List Char → List Char
  | x :: y :: rest =>
    if x = a ∧ y = b then c :: replacedPair a b c rest else x :: replacedPair a b c (y :: rest)
  | text => text

/-- The segment of a token, by two replacements one after the other. -/
def segmentOf (token : List Char) : List Char :=
  replacedPair '~' '0' '~' (replacedPair '~' '1' '/' token)

theorem replacedPair_cons_ne {a b c x : Char} (h : x ≠ a) (text : List Char) :
    replacedPair a b c (x :: text) = x :: replacedPair a b c text := by
  cases text with
  | nil => rfl
  | cons y rest => rw [replacedPair, if_neg fun hpair => h hpair.1]

theorem replacedPair_pair (a b c : Char) (rest : List Char) :
    replacedPair a b c (a :: b :: rest) = c :: replacedPair a b c rest := by
  rw [replacedPair, if_pos ⟨rfl, rfl⟩]

/-- Where the reader of tokens finds a segment, the replacements find the same. -/
theorem segmentOf_of_unescape (h : unescape token = some segment) : segmentOf token = segment := by
  unfold segmentOf
  fun_induction unescape token generalizing segment with
  | case1 =>
    cases h
    rfl
  | case2 rest ih =>
    obtain ⟨s, hs, rfl⟩ := Option.map_eq_some_iff.mp h
    -- the first pass leaves the escape of a tilde as it is
    have hfirst : replacedPair '~' '1' '/' ('~' :: '0' :: rest) =
        '~' :: '0' :: replacedPair '~' '1' '/' rest := by
      rw [replacedPair, if_neg (by decide), replacedPair_cons_ne (by decide)]
    rw [hfirst, replacedPair_pair, ih hs]
  | case3 rest ih =>
    obtain ⟨s, hs, rfl⟩ := Option.map_eq_some_iff.mp h
    rw [replacedPair_pair, replacedPair_cons_ne (by decide), ih hs]
  | case4 => cases h
  | case5 c rest _ _ htilde ih =>
    obtain ⟨s, hs, rfl⟩ := Option.map_eq_some_iff.mp h
    rw [replacedPair_cons_ne htilde, replacedPair_cons_ne htilde, ih hs]

/-! ## Pointers -/

theorem encode_cons (s : List Char) (rest : List (List Char)) :
    encode (s :: rest) = '/' :: (escape s ++ encode rest) := rfl

/-- A pointer is the empty text and its tokens, joined by slashes. -/
theorem encode_eq_joinSegments (segments : List (List Char)) :
    encode segments = Text.joinSegments '/' ([] :: segments.map escape) := by
  induction segments with
  | nil => rfl
  | cons s rest ih =>
    have hjoin : ∀ ts, Text.joinSegments '/' (escape s :: ts) =
        escape s ++ Text.joinSegments '/' ([] :: ts) := by
      intro ts
      cases ts with
      | nil => simp [Text.joinSegments]
      | cons t ts => rfl
    rw [encode_cons, ih, ← hjoin]
    rfl

/-- Between its slashes stand its tokens. -/
theorem segments_encode (segments : List (List Char)) :
    Text.segments '/' (encode segments) = [] :: segments.map escape := by
  rw [encode_eq_joinSegments]
  apply Text.segments_joinSegments (List.cons_ne_nil _ _)
  intro s hs
  rcases List.mem_cons.mp hs with rfl | hs
  · exact List.not_mem_nil
  · obtain ⟨segment, -, rfl⟩ := List.mem_map.mp hs
    exact slash_not_mem_escape segment

theorem decode_encode (segments : List (List Char)) : decode (encode segments) = some segments := by
  cases segments with
  | nil => rfl
  | cons s rest =>
    have htokens := segments_encode (s :: rest)
    rw [encode_cons, Text.segments, if_pos rfl, List.cons.injEq] at htokens
    rw [encode_cons, decode, htokens.2]
    exact Lists.mapM_map_eq_some fun s _ => unescape_escape s

/-- Tokens that are read are the escaped forms of what they are read as. -/
theorem map_escape_of_mapM {tokens : List (List Char)} (h : tokens.mapM unescape = some segments)
    (hslash : ∀ t ∈ tokens, '/' ∉ t) : segments.map escape = tokens := by
  have hall := Lists.mapM_eq_some_iff.mp h
  clear h
  induction hall with
  | nil => rfl
  | cons hs _ ih =>
    obtain ⟨ht, hrest⟩ := List.forall_mem_cons.mp hslash
    rw [List.map_cons, escape_of_unescape hs ht, ih hrest]

/-- The only text that is read as some segments is their pointer. -/
theorem decode_eq_some_iff {cs : List Char} : decode cs = some segments ↔ cs = encode segments := by
  constructor
  · intro h
    unfold decode at h
    split at h
    · cases h
      rfl
    · rename_i rest
      have htokens := map_escape_of_mapM h fun t ht => Text.not_mem_of_mem_segments ht
      rw [encode_eq_joinSegments, htokens]
      -- there is at least one token behind the first slash
      cases hrest : Text.segments '/' rest with
      | nil => exact absurd hrest (Text.segments_ne_nil '/' rest)
      | cons t ts =>
        have hjoin := Text.joinSegments_segments '/' rest
        rw [hrest] at hjoin
        rw [Text.joinSegments, hjoin]
        rfl
    · cases h
  · rintro rfl
    exact decode_encode segments

/-- The segments of a pointer, by splitting it at its slashes; nothing stands before the first one. -/
def segmentsOf (pointer : String) : List String :=
  (Text.segmentsOf pointer '/').tail.map fun t => String.ofList (segmentOf t.toList)

theorem segmentsOf_ofSegments (segments : List String) :
    segmentsOf (ofSegments segments) = segments := by
  have hread : ∀ s : List Char, segmentOf (escape s) = s := by
    intro s
    exact segmentOf_of_unescape (unescape_escape s)
  simp [segmentsOf, ofSegments, Text.segmentsOf, segments_encode, hread, Function.comp_def]

/-- What is written for a segment. -/
structure Tokenized (segment token : List Char) : Prop where
  /-- The tildes are replaced first, the slashes after them. -/
  replaced : token = replaced '/' ['~', '1'] (replaced '~' ['~', '0'] segment)
  slashless : '/' ∉ token
  /-- Every tilde begins an escape. -/
  escaped : ∀ before after, token = before ++ '~' :: after →
    after.head? = some '0' ∨ after.head? = some '1'

/-- A pointer and the segments that it is made of. -/
structure ReadsBack (segments : List String) : Prop where
  split : segmentsOf (ofSegments segments) = segments
  /-- A reader that refuses all other tildes reads this text as the segments, and no other. -/
  decoded : ∀ cs, decode cs = some (segments.map String.toList) ↔ cs = (ofSegments segments).toList

/-- Pointers give back the segments that they are made of. -/
theorem segments_read_back :
    (∀ segments, ReadsBack segments) ∧ Function.Injective ofSegments ∧
      ∀ segment, Tokenized segment.toList (escapeText segment).toList := by
  refine ⟨?_, ?_, ?_⟩
  · intro segments
    refine ⟨segmentsOf_ofSegments segments, ?_⟩
    intro cs
    rw [decode_eq_some_iff, ofSegments, String.toList_ofList]
  · intro first second h
    rw [← segmentsOf_ofSegments first, h, segmentsOf_ofSegments]
  · intro segment
    rw [escapeText, String.toList_ofList]
    exact ⟨escape_eq_replaced _, slash_not_mem_escape _, fun _ _ h => head?_of_escape h⟩

example : ofSegments ["data", "", "~1", "a/b~c"] = "/data//~01/a~1b~0c" := by decide +kernel

end EcosystemSetup.Pointer
