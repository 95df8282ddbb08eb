import Mathlib.Data.List.DropRight
import Stencil.Proofs.Linking
import Stencil.Proofs.Source.Cutting
import Stencil.Proofs.Text.Utf8

/-! # Where tokens stand

A token knows which bytes of the source it covers, and the line and the column of its first
character. Tokens follow each other in the source, and all that they leave out are blanks inside
placeholders.
-/

namespace Stencil

def Text.bytes (characters : List Char) : List UInt8 :=
  (String.ofList characters).toUTF8.toList

namespace Text

theorem bytes_append (front back : List Char) :
    bytes (front ++ back) = bytes front ++ bytes back := by
  rw [bytes, String.ofList_append, toList_toUTF8_append]
  rfl

@[simp] theorem bytes_nil : bytes [] = [] := by
  simp [bytes, toList_eq_toList_data]

theorem length_bytes_singleton (character : Char) :
    (bytes [character]).length = character.utf8Size := by
  have size := size_utf8Encode_singleton character
  simpa [bytes, toList_eq_toList_data] using size

theorem length_bytes_cons (character : Char) (later : List Char) :
    (bytes (character :: later)).length = character.utf8Size + (bytes later).length := by
  rw [← List.singleton_append, bytes_append, List.length_append, length_bytes_singleton]

theorem length_bytes_pos {characters : List Char} (some : characters ≠ []) :
    0 < (bytes characters).length := by
  rcases characters with _ | ⟨first, later⟩
  · exact absurd rfl some
  · have positive := first.utf8Size_pos
    rw [length_bytes_cons]
    omega

end Text

open Text (bytes)

namespace Place

theorem after_append (place : Place) (front back : List Char) :
    place.after (front ++ back) = (place.after front).after back :=
  List.foldl_append

theorem after_append_singleton (place : Place) (front : List Char) (character : Char) :
    place.after (front ++ [character]) = (place.after front).afterChar character :=
  List.foldl_append

theorem offset_after (place : Place) (characters : List Char) :
    (place.after characters).offset = place.offset + (bytes characters).length := by
  induction characters generalizing place with
  | nil => simp [after]
  | cons character later induction =>
      have first : (place.afterChar character).offset = place.offset + character.utf8Size := by
        unfold afterChar
        split <;> rfl
      change ((place.afterChar character).after later).offset = _
      rw [induction, first, Text.length_bytes_cons, Nat.add_assoc]

theorem after_origin (before : List Char) :
    origin.after before =
      ⟨(bytes before).length, 1 + before.count '\n',
        1 + (before.rtakeWhile fun character => character ≠ '\n').length⟩ := by
  induction before using List.reverseRecOn with
  | nil => simp [after, origin]
  | append_singleton front character induction =>
      have size : (bytes (front ++ [character])).length =
          (bytes front).length + character.utf8Size := by
        rw [Text.bytes_append, List.length_append, Text.length_bytes_singleton]
      rw [after_append_singleton, induction, afterChar, size, List.count_append,
        List.rtakeWhile_concat]
      split
      · rename_i feed
        simp [feed, Nat.add_assoc]
      · rename_i noFeed
        simp [noFeed, Nat.add_assoc]

end Place

/-- What a token says about itself is true of a slice of the source with a beginning of the source
before it. A line break has one text, however it is written in the source. -/
structure Token.StandsFor (token : Token) (before slice : List Char) : Prop where
  start : token.span.start = (bytes before).length
  stop : token.span.stop = (bytes (before ++ slice)).length
  line : token.span.line = 1 + before.count '\n'
  column : token.span.column = 1 + (before.rtakeWhile fun character => character ≠ '\n').length
  text : token.kind = .newline ∧ token.text? = some "\n" ∧
      (slice = ['\n'] ∨ slice = ['\r', '\n']) ∨
    token.kind ≠ .newline ∧ token.text? = some (String.ofList slice)

/-- A byte comes behind opening braces, and in front of all closing braces that follow on those. -/
def Token.Encloses (tokens : List Token) (index : Nat) : Prop :=
  ∃ opening ∈ tokens, opening.kind = .openBraces ∧ opening.span.stop ≤ index ∧
    ∀ closing ∈ tokens, closing.kind = .closeBraces →
      opening.span.stop ≤ closing.span.start → index < closing.span.start

structure Token.Placed (source : String) (tokens : List Token) : Prop where
  slices : ∀ token ∈ tokens, ∃ before slice behind,
    source.toList = before ++ (slice ++ behind) ∧ token.StandsFor before slice
  separated : tokens.Pairwise fun token later => token.span.stop ≤ later.span.start
  ends : ∃ last, tokens.getLast? = some last ∧ last.kind = .endOfInput ∧
    last.span.start = source.utf8ByteSize ∧ last.span.stop = source.utf8ByteSize
  blanks : ∀ index byte, source.toUTF8.toList[index]? = some byte →
    (∀ token ∈ tokens, ¬(token.span.start ≤ index ∧ index < token.span.stop)) →
      (byte = 32 ∨ byte = 9) ∧ Token.Encloses tokens index

namespace Source

open Lexeme

/-! ## The tokens that are cut off -/

theorem Cuts.last_eq {mode : Mode} {place last : Place} {source : List Char} {tokens : List Token}
    (cuts : Cuts mode place source tokens last) : last = place.after source := by
  induction cuts with
  | done => rfl
  | token found _ induction =>
      rw [induction, ← Place.after_append, (token_of_first found).2]
  | skipped found _ induction =>
      rw [induction, ← Place.after_append, (skipped_of_first found).2]

theorem Cuts.separated {mode : Mode} {place last : Place} {source : List Char} {tokens : List Token}
    (cuts : Cuts mode place source tokens last) :
    (∀ token ∈ tokens, place.offset ≤ token.span.start ∧ token.span.start < token.span.stop) ∧
      tokens.Pairwise fun token later => token.span.stop ≤ later.span.start := by
  induction cuts with
  | done => exact ⟨nofun, .nil⟩
  | @token _ _ place _ _ _ raw _ kind _ found _ induction =>
      rcases induction with ⟨behind, separated⟩
      have positive := Text.length_bytes_pos (token_of_first found).1
      rw [Place.offset_after] at behind
      have stop : (tokenAt place kind raw).span.stop = place.offset + (bytes raw).length :=
        Place.offset_after place raw
      refine ⟨List.forall_mem_cons.mpr ⟨⟨Nat.le_refl _, ?_⟩, ?_⟩,
        List.pairwise_cons.mpr ⟨?_, separated⟩⟩
      · change place.offset < _
        omega
      · intro later member
        have bounds := behind later member
        omega
      · intro later member
        have bounds := behind later member
        omega
  | @skipped _ place _ _ _ raw _ _ _ _ induction =>
      rcases induction with ⟨behind, separated⟩
      rw [Place.offset_after] at behind
      refine ⟨?_, separated⟩
      intro later member
      have bounds := behind later member
      omega

theorem raw_of_newline {mode next : Mode} {character : Char} {rest raw behind : List Char}
    (found : first mode character rest = .token .newline raw behind next) :
    raw = ['\n'] ∨ raw = ['\r', '\n'] := by
  cases mode with
  | text =>
      have shows := ofText_of_first found
      generalize character :: rest = source at shows
      cases shows with
      | newline breaks => exact breaks
  | placeholder =>
      have shows := ofPlaceholder_of_first found
      generalize character :: rest = source at shows
      cases shows with
      | newline breaks => exact breaks
  | name => cases (ofName_of_first found).1

theorem standsFor_tokenAt {mode next : Mode} {character : Char} {rest raw behind : List Char}
    {kind : Symbol} (found : first mode character rest = .token kind raw behind next)
    (before : List Char) :
    (tokenAt (Place.origin.after before) kind raw).StandsFor before raw := by
  have place := Place.after_origin before
  refine ⟨congrArg Place.offset place, ?_, congrArg Place.line place,
    congrArg Place.column place, ?_⟩
  · change ((Place.origin.after before).after raw).offset = _
    rw [← Place.after_append, Place.after_origin]
  · by_cases newline : kind = .newline
    · subst newline
      exact .inl ⟨rfl, rfl, raw_of_newline found⟩
    · refine .inr ⟨newline, ?_⟩
      change some (tokenText kind raw) = _
      rw [tokenText, if_neg newline]

theorem Cuts.slices {mode : Mode} {place last : Place} {source before : List Char}
    {tokens : List Token} (cuts : Cuts mode place source tokens last)
    (reached : place = Place.origin.after before) :
    ∀ token ∈ tokens, ∃ front slice behind,
      before ++ source = front ++ (slice ++ behind) ∧ token.StandsFor front slice := by
  induction cuts generalizing before with
  | done => exact nofun
  | @token _ _ _ _ _ _ raw behind _ _ found _ induction =>
      subst reached
      rw [← (token_of_first found).2]
      have here := standsFor_tokenAt found before
      refine List.forall_mem_cons.mpr ⟨⟨before, raw, behind, rfl, here⟩, ?_⟩
      have later := induction (Place.after_append _ before raw).symm
      rwa [List.append_assoc] at later
  | skipped found _ induction =>
      subst reached
      rw [← (skipped_of_first found).2]
      have later := induction (Place.after_append _ before _).symm
      rwa [List.append_assoc] at later

/-! ## What is skipped -/

theorem spacing_of_skipped {mode : Mode} {character : Char} {rest raw behind : List Char}
    (found : first mode character rest = .skipped raw behind) : Spacing raw := by
  rcases of_skipped found with ⟨rfl, spacing, _⟩
  have blank := (longest_spacing (character :: rest)).holds
  rw [List.takeWhile_cons_of_pos spacing] at blank
  change firstOfPlaceholder character rest = _ at found
  rw [firstOfPlaceholder, if_pos spacing] at found
  dsimp only at found
  split at found <;> cases found
  exact blank

theorem byte_of_spacing {run : List Char} (spacing : Spacing run) :
    ∀ byte ∈ bytes run, byte = 32 ∨ byte = 9 := by
  induction run with
  | nil => simp
  | cons character later induction =>
      rcases List.forall_mem_cons.mp spacing with ⟨blank, others⟩
      rw [← List.singleton_append, Text.bytes_append]
      have first : bytes [character] = [32] ∨ bytes [character] = [9] := by
        rcases blank with rfl | rfl
        · exact .inl (by decide +kernel)
        · exact .inr (by decide +kernel)
      intro byte member
      rcases List.mem_append.mp member with member | member
      · rcases first with single | single <;> rw [single, List.mem_singleton] at member
        · exact .inl member
        · exact .inr member
      · exact induction others byte member

theorem mode_of_token {mode next : Mode} {character : Char} {rest raw behind : List Char}
    {kind : Symbol} (found : first mode character rest = .token kind raw behind next)
    (inside : next ≠ .text) : kind ≠ .closeBraces ∧ (kind = .openBraces ∨ mode ≠ .text) := by
  cases mode with
  | text =>
      have shows := ofText_of_first found
      generalize character :: rest = source at shows
      cases shows with
      | opening => exact ⟨nofun, .inl rfl⟩
      | newline | blank | text => exact absurd rfl inside
  | placeholder =>
      have shows := ofPlaceholder_of_first found
      generalize character :: rest = source at shows
      cases shows with
      | closing => exact absurd rfl inside
      | opening | dot | newline | brace | name => exact ⟨nofun, .inr nofun⟩
  | name =>
      rw [(ofName_of_first found).1]
      exact ⟨nofun, .inr nofun⟩

theorem Cuts.blanks {mode : Mode} {place last : Place} {source before : List Char}
    {tokens : List Token} (cuts : Cuts mode place source tokens last)
    (reached : place.offset = (bytes before).length) {index : Nat} {byte : UInt8}
    (shown : (bytes (before ++ source))[index]? = some byte) (ahead : place.offset ≤ index)
    (free : ∀ token ∈ tokens, ¬(token.span.start ≤ index ∧ index < token.span.stop)) :
    (byte = 32 ∨ byte = 9) ∧
      ((mode ≠ .text ∧
          ∀ closing ∈ tokens, closing.kind = .closeBraces → index < closing.span.start) ∨
        Token.Encloses tokens index) := by
  induction cuts generalizing before with
  | done =>
      rw [List.append_nil, List.getElem?_eq_none (by omega)] at shown
      cases shown
  | @token mode next place last character rest raw behind kind later found cuts induction =>
      have stop : (tokenAt place kind raw).span.stop = place.offset + (bytes raw).length :=
        Place.offset_after place raw
      rcases List.forall_mem_cons.mp free with ⟨freeHere, freeLater⟩
      have beyond : place.offset + (bytes raw).length ≤ index := by
        by_contra within
        exact freeHere ⟨ahead, by omega⟩
      have moved : (place.after raw).offset = (bytes (before ++ raw)).length := by
        rw [Place.offset_after, reached, Text.bytes_append, List.length_append]
      rw [← (token_of_first found).2, ← List.append_assoc] at shown
      rcases induction moved shown (by rwa [Place.offset_after]) freeLater with ⟨blank, inside⟩
      refine ⟨blank, ?_⟩
      rcases inside with ⟨inside, unclosed⟩ | ⟨opening, member, opens, passed, unclosed⟩
      · rcases mode_of_token found inside with ⟨noClose, opens | stays⟩
        · subst opens
          refine .inr ⟨_, List.mem_cons_self, rfl, by omega, ?_⟩
          intro closing member closes _
          rcases List.mem_cons.mp member with rfl | member
          · cases closes
          · exact unclosed closing member closes
        · refine .inl ⟨stays, List.forall_mem_cons.mpr ⟨?_, unclosed⟩⟩
          exact fun closes => absurd closes noClose
      · refine .inr ⟨opening, List.mem_cons_of_mem _ member, opens, passed, ?_⟩
        have later := cuts.separated.1 opening member
        rw [Place.offset_after] at later
        intro closing member closes order
        rcases List.mem_cons.mp member with rfl | member
        · -- The braces that close here come before the ones that open.
          change opening.span.stop ≤ place.offset at order
          omega
        · exact unclosed closing member closes order
  | @skipped mode place last character rest raw behind later found cuts induction =>
      rw [← (skipped_of_first found).2] at shown
      by_cases within : index < place.offset + (bytes raw).length
      · rcases of_skipped found with ⟨rfl, _⟩
        rw [Text.bytes_append, Text.bytes_append, List.getElem?_append_right (by omega),
          List.getElem?_append_left (by omega)] at shown
        refine ⟨byte_of_spacing (spacing_of_skipped found) byte (List.mem_of_getElem? shown),
          .inl ⟨nofun, ?_⟩⟩
        intro closing member _
        have bounds := cuts.separated.1 closing member
        rw [Place.offset_after] at bounds
        omega
      · rw [← List.append_assoc] at shown
        refine induction ?_ shown ?_ free
        · rw [Place.offset_after, reached, Text.bytes_append, List.length_append]
        · rw [Place.offset_after]
          omega

end Source

/-! ## All tokens of a source -/

namespace Token

@[simp] theorem span_withLookahead (token : Token) (lookahead : Option Lookahead) :
    (token.withLookahead lookahead).span = token.span := by
  cases token <;> rfl

@[simp] theorem text?_withLookahead (token : Token) (lookahead : Option Lookahead) :
    (token.withLookahead lookahead).text? = token.text? := by
  cases token <;> rfl

theorem standsFor_withLookahead (token : Token) (lookahead : Option Lookahead)
    (before slice : List Char) :
    (token.withLookahead lookahead).StandsFor before slice ↔ token.StandsFor before slice := by
  constructor <;> rintro ⟨start, stop, line, column, text⟩ <;>
    exact ⟨by simpa using start, by simpa using stop, by simpa using line, by simpa using column,
      by simpa using text⟩

theorem encloses_link {tokens : List Token} {index : Nat} :
    Encloses (link tokens) index ↔ Encloses tokens index := by
  unfold Encloses
  rw [exists_mem_link_iff]
  · simp only [forall_mem_link_iff, kind_withLookahead, span_withLookahead, implies_true]
  · simp

theorem Placed.link {source : String} {tokens : List Token} (placed : Placed source tokens) :
    Placed source (link tokens) where
  slices := by
    apply forall_mem_link _ placed.slices
    simp only [standsFor_withLookahead, implies_true]
  separated := by
    have viewed (tokens : List Token) :
        (tokens.Pairwise fun token later => token.span.stop ≤ later.span.start) ↔
          (tokens.map span).Pairwise fun span later => span.stop ≤ later.start := by
      rw [List.pairwise_map]
    rw [viewed, map_link span_withLookahead, ← viewed]
    exact placed.separated
  ends := by
    rcases placed.ends with ⟨last, isLast, kind, place⟩
    have views : (Token.link tokens).map (fun token => (token.kind, token.span)) =
        tokens.map fun token => (token.kind, token.span) := map_link (by simp) tokens
    have ends := congrArg List.getLast? views
    rw [List.getLast?_map, List.getLast?_map, isLast] at ends
    rcases Option.map_eq_some_iff.mp ends with ⟨linked, isLinked, same⟩
    rw [Prod.mk.injEq] at same
    exact ⟨linked, isLinked, same.1.trans kind, by rwa [same.2]⟩
  blanks index byte shown free := by
    rw [forall_mem_link_iff (by simp)] at free
    rw [encloses_link]
    exact placed.blanks index byte shown free

end Token

namespace Source

theorem standsFor_endToken (source : List Char) :
    (endToken (Place.origin.after source)).StandsFor source [] := by
  have place := Place.after_origin source
  refine ⟨congrArg Place.offset place, ?_, congrArg Place.line place,
    congrArg Place.column place, .inr ⟨nofun, rfl⟩⟩
  rw [List.append_nil]
  exact congrArg Place.offset place

/-- The tokens of a source stand where they say, in order and side by side, and what they leave out
are blanks in placeholders. -/
theorem tokenizeText_placed {source : String} {tokens : List Token}
    (read : (tokenizeText source).value = .ok tokens) : Token.Placed source tokens := by
  rcases value_tokenize_eq_ok_iff.mp read with ⟨later, last, cuts, rfl⟩
  have whole : bytes source.toList = source.toUTF8.toList := by
    rw [bytes, String.ofList_toList]
  have size : (bytes source.toList).length = source.utf8ByteSize := by
    rw [whole, Text.toList_eq_toList_data]
    rfl
  have start : Place.origin = Place.origin.after [] := rfl
  have slices := cuts.slices start
  have final := cuts.last_eq
  subst final
  have ending := standsFor_endToken source.toList
  apply Token.Placed.link
  refine ⟨?_, ?_, ?_, ?_⟩
  · refine List.forall_mem_append.mpr ⟨slices, List.forall_mem_singleton.mpr ?_⟩
    exact ⟨source.toList, [], [], by simp, ending⟩
  · refine List.pairwise_append.mpr ⟨cuts.separated.2, List.pairwise_singleton _ _, ?_⟩
    intro token member last isLast
    rcases slices token member with ⟨before, slice, behind, same, stands⟩
    rw [List.mem_singleton.mp isLast, stands.stop, ending.start, ← List.nil_append source.toList,
      same, ← List.append_assoc, Text.bytes_append (before ++ slice), List.length_append]
    exact Nat.le_add_right _ _
  · refine ⟨_, List.getLast?_concat, rfl, ?_, ?_⟩
    · rw [ending.start, size]
    · rw [ending.stop, List.append_nil, size]
  · intro index byte shown free
    have reached : Place.origin.offset = (bytes []).length := by
      rw [Text.bytes_nil]
      rfl
    rw [← whole] at shown
    rcases cuts.blanks reached shown (Nat.zero_le index)
        fun token member => free token (List.mem_append_left _ member) with
      ⟨blank, ⟨outside, _⟩ | ⟨opening, member, opens, passed, unclosed⟩⟩
    · exact absurd rfl outside
    · refine ⟨blank, opening, List.mem_append_left _ member, opens, passed, ?_⟩
      refine List.forall_mem_append.mpr ⟨unclosed, List.forall_mem_singleton.mpr ?_⟩
      exact nofun

theorem tokenizeText_placed_skipped :
    ∃ tokens, (tokenizeText "é\r\n\x7b\x7b .A B").value = .ok tokens ∧
      tokens.map Token.span =
        [⟨0, 2, 1, 1⟩, ⟨2, 4, 1, 2⟩, ⟨4, 7, 2, 1⟩, ⟨7, 8, 2, 4⟩, ⟨8, 9, 2, 5⟩, ⟨10, 11, 2, 7⟩,
          ⟨11, 11, 2, 8⟩] ∧
      Token.Placed "é\r\n\x7b\x7b .A B" tokens ∧ Token.Encloses tokens 9 := by
  have shown : (tokenizeText "é\r\n\x7b\x7b .A B").value.map (List.map Token.span) =
      .ok [⟨0, 2, 1, 1⟩, ⟨2, 4, 1, 2⟩, ⟨4, 7, 2, 1⟩, ⟨7, 8, 2, 4⟩, ⟨8, 9, 2, 5⟩, ⟨10, 11, 2, 7⟩,
        ⟨11, 11, 2, 8⟩] := by decide +kernel
  match read : (tokenizeText "é\r\n\x7b\x7b .A B").value with
  | .error error =>
      rw [read] at shown
      cases shown
  | .ok tokens =>
      rw [read] at shown
      have spans := Except.ok.inj shown
      have placed := tokenizeText_placed read
      have free : ∀ token ∈ tokens, ¬(token.span.start ≤ 9 ∧ 9 < token.span.stop) := by
        have apart : ∀ span ∈ tokens.map Token.span, ¬(span.start ≤ 9 ∧ 9 < span.stop) := by
          rw [spans]
          decide
        exact fun token member => apart token.span (List.mem_map_of_mem member)
      have byte : "é\r\n\x7b\x7b .A B".toUTF8.toList[9]? = some 32 := by decide +kernel
      exact ⟨tokens, rfl, spans, placed, (placed.blanks 9 32 byte free).2⟩

end Source

end Stencil
