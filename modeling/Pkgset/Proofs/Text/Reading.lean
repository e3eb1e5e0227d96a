import Pkgset.Proofs.Derivation.Printing

/-!
# What a JSON text is read as

A text may spell a token in several ways, and have blanks between its tokens. It is cut
into the tokens that it spells, and the tokens of a document are put together to that
document. The compact text of a value is one of the texts that write its document.
-/

namespace Pkgset.Json
open Decimal

/-! ### Spellings -/

/-- Digits, at least one. -/
def Digits (cs : List Char) : Prop := cs ≠ [] ∧ ∀ c ∈ cs, c.isDigit = true

/-- The ways to go on after the whole part of a number, with or without a point. -/
inductive Point : Bool → List Char → Prop
  | absent : Point false []
  | digits {cs : List Char} (digits : Digits cs) : Point true ('.' :: cs)

/-- The ways to end a number, with or without an exponent. -/
inductive Exponent : Bool → List Char → Prop
  | absent : Exponent false []
  | digits {letter : Char} {sign cs : List Char} (named : letter = 'e' ∨ letter = 'E')
    (signed : sign = [] ∨ sign = ['+'] ∨ sign = ['-']) (digits : Digits cs) : Exponent true (letter :: (sign ++ cs))

/-- The ways to spell a number: its whole part has no zero in front. -/
inductive Token.Numeral : Token → List Char → Prop
  | mk {point exponent : Bool} {after last : List Char} (negative : Bool) (size : Nat) (pointed : Point point after)
    (raised : Exponent exponent last) :
    Numeral (if point || exponent then .fraction else .whole negative size)
      ((if negative then ['-'] else []) ++ (digits size ++ (after ++ last)))

/-- The ways to spell a token that is no number. -/
inductive Token.Spelling : Token → List Char → Prop
  | openBrace : Spelling .openBrace ['{']
  | closeBrace : Spelling .closeBrace ['}']
  | openBracket : Spelling .openBracket ['[']
  | closeBracket : Spelling .closeBracket [']']
  | colon : Spelling .colon [':']
  | comma : Spelling .comma [',']
  | null : Spelling .null ['n', 'u', 'l', 'l']
  | yes : Spelling (.flag true) ['t', 'r', 'u', 'e']
  | no : Spelling (.flag false) ['f', 'a', 'l', 's', 'e']
  | text {pieces : List Piece} {cs : List Char} (spelled : Piece.Spellings pieces cs) :
    Spelling (.text ((Token.characters? pieces).map String.ofList)) ('"' :: (cs ++ ['"']))

/-- What follows a number does not belong to it. -/
def Ends (rest : List Char) : Prop := ∀ c ∈ rest.head?, c.isDigit = false ∧ c ≠ '.' ∧ c ≠ 'e' ∧ c ≠ 'E'

/-- The ways to write tokens one after another, with blanks wherever no token stands. -/
inductive Token.Layout : List Token → List Char → Prop
  | nil : Layout [] []
  | gap {c : Char} {tokens : List Token} {cs : List Char} (blank : Token.isGap c = true) (rest : Layout tokens cs) :
    Layout tokens (c :: cs)
  | token {token : Token} {tokens : List Token} {cs others : List Char} (first : token.Spelling cs)
    (rest : Layout tokens others) : Layout (token :: tokens) (cs ++ others)
  | numeral {token : Token} {tokens : List Token} {cs others : List Char} (first : token.Numeral cs)
    (ends : Ends others) (rest : Layout tokens others) : Layout (token :: tokens) (cs ++ others)

/-! ### Reading a token -/

theorem Token.Spelling.first? {token : Token} {cs : List Char} (spelled : token.Spelling cs) (rest : List Char) :
    Token.first? (cs ++ rest) = some (token, rest) := by
  cases spelled with
  | text spelled => simp [Token.first?, spelled.pieces?]
  | _ => rfl

theorem Digits.takeDigits {cs rest : List Char} (digits : Digits cs) (stops : Stops rest) :
    Token.takeDigits (cs ++ rest) = (cs, rest) := by
  have taken : rest.takeWhile Char.isDigit = [] := by
    cases rest with
    | nil => rfl
    | cons c rest => simp [stops c (by simp)]
  have dropped : rest.dropWhile Char.isDigit = rest := by
    cases rest with
    | nil => rfl
    | cons c rest => simp [stops c (by simp)]
  rw [Token.takeDigits, List.takeWhile_append_of_pos digits.2, List.dropWhile_append_of_pos digits.2, taken, dropped,
    List.append_nil]

theorem digits_digits (n : Nat) : Digits (digits n) := by
  obtain ⟨c, more, shape, _⟩ := digits_eq_cons n
  exact ⟨by simp [shape], isDigit_of_mem_digits n⟩

theorem Point.dropPoint? {point : Bool} {cs rest : List Char} (pointed : Point point cs) (stops : Stops rest)
    (plain : ∀ c ∈ rest.head?, c ≠ '.') : Token.dropPoint? (cs ++ rest) = some (point, rest) := by
  cases pointed with
  | absent =>
    cases rest with
    | nil => rfl
    | cons c rest =>
      have other := plain c (by simp)
      rw [List.nil_append, Token.dropPoint?]
      simpa using other
  | digits digits =>
    obtain ⟨c, more, shape⟩ := List.exists_cons_of_ne_nil digits.1
    rw [List.cons_append, Token.dropPoint?, digits.takeDigits stops, shape]

theorem Exponent.dropExponent? {exponent : Bool} {cs rest : List Char} (raised : Exponent exponent cs) (ends : Ends rest) :
    Token.dropExponent? (cs ++ rest) = some (exponent, rest) := by
  cases raised with
  | absent =>
    cases rest with
    | nil => rfl
    | cons c rest =>
      have other := (ends c (by simp)).2.2
      simp [Token.dropExponent?, other]
  | @digits letter sign cs named signed digits =>
    have taken := digits.takeDigits fun c first => (ends c first).1
    obtain ⟨c, more, rfl⟩ := List.exists_cons_of_ne_nil digits.1
    have digit : c.isDigit = true := digits.2 c (by simp)
    have unsigned : ∀ after, c :: more ++ rest ≠ '+' :: after ∧ c :: more ++ rest ≠ '-' :: after := by
      intro after
      constructor
      all_goals
        intro clash
        obtain ⟨rfl, _⟩ := List.cons.inj clash
        cases digit
    rcases signed with rfl | rfl | rfl
    · rw [List.nil_append, List.cons_append, Token.dropExponent?, if_pos named]
      · simp only [taken]
      · exact fun after => (unsigned after).1
      · exact fun after => (unsigned after).2
    all_goals
      rw [List.cons_append, List.append_assoc, List.cons_append, List.nil_append, Token.dropExponent?, if_pos named]
      simp only [taken]

/-- What may stand after the whole part of a number does not go on with a digit. -/
theorem Exponent.stops {exponent : Bool} {cs rest : List Char} (raised : Exponent exponent cs) (ends : Ends rest) :
    ∀ c ∈ (cs ++ rest).head?, c.isDigit = false ∧ c ≠ '.' := by
  cases raised with
  | absent => exact fun c first => ⟨(ends c first).1, (ends c first).2.1⟩
  | digits named signed digits =>
    simp only [List.cons_append, List.head?_cons, Option.mem_def, Option.some.injEq, forall_eq']
    rcases named with rfl | rfl <;> decide

theorem Point.stops {point : Bool} {cs rest : List Char} (pointed : Point point cs) (stops : Stops rest) :
    Stops (cs ++ rest) := by
  cases pointed with
  | absent => exact stops
  | digits digits => simp [Stops]

theorem digits_eq_zero_cons {n : Nat} {rest : List Char} (shape : digits n = '0' :: rest) : n = 0 := by
  fun_induction digits n generalizing rest with
  | case1 n small =>
    have first : digit n = '0' := (List.cons.inj shape).1
    have read := congrArg value first
    rwa [value_digit small] at read
  | case2 n large ih =>
    obtain ⟨c, more, shape', _⟩ := digits_eq_cons (n / 10)
    rw [shape', List.cons_append, List.cons.injEq] at shape
    have none := ih (shape'.trans (by rw [shape.1]))
    omega

theorem unsigned?_digits {point exponent : Bool} {after last rest : List Char} (negative : Bool) (n : Nat)
    (pointed : Point point after) (raised : Exponent exponent last) (ends : Ends rest) :
    Token.unsigned? negative (digits n ++ (after ++ (last ++ rest))) =
      some (if point || exponent then .fraction else .whole negative n, rest) := by
  have open' := raised.stops ends
  have stops : Stops (last ++ rest) := fun c first => (open' c first).1
  have dropped := pointed.dropPoint? stops fun c first => (open' c first).2
  have lowered := raised.dropExponent? ends
  have taken := (digits_digits n).takeDigits (pointed.stops stops)
  obtain ⟨c, more, shape, digit⟩ := digits_eq_cons n
  by_cases zero : c = '0'
  · subst zero
    obtain rfl := digits_eq_zero_cons shape
    have single : digits 0 = ['0'] := by rw [digits]; rfl
    simp [Token.unsigned?, single, dropped, lowered]
  · unfold Token.unsigned?
    split
    next rest' first =>
      rw [shape, List.cons_append, List.cons.injEq] at first
      exact absurd first.1 zero
    next =>
      have filled : digits n ≠ [] := by simp [shape]
      simp only [taken]
      simp [dropped, lowered, ofDigits_digits]

/-- A number is read as the token that it spells, if what follows does not belong to it. -/
theorem Token.Numeral.first? {token : Token} {cs rest : List Char} (spelled : token.Numeral cs) (ends : Ends rest) :
    Token.first? (cs ++ rest) = some (token, rest) := by
  obtain ⟨negative, size, pointed, raised⟩ := spelled
  have reads := unsigned?_digits negative size pointed raised ends
  simp only [List.append_assoc]
  cases negative with
  | true => exact reads
  | false =>
    rw [← reads]
    obtain ⟨c, more, shape, digit⟩ := digits_eq_cons size
    simp only [Bool.false_eq_true, ↓reduceIte, List.nil_append, shape, List.cons_append]
    unfold Token.first?
    split
    all_goals first
      | rfl
      | next clash =>
        obtain ⟨rfl, _⟩ := List.cons.inj clash
        cases digit

/-! ### Cutting a text into tokens -/

/-- No token begins with a blank. -/
theorem Token.Spelling.shape {token : Token} {cs : List Char} (spelled : token.Spelling cs) :
    ∃ c more, cs = c :: more ∧ Token.isGap c = false := by
  cases spelled <;> exact ⟨_, _, rfl, by decide⟩

theorem Token.Numeral.shape {token : Token} {cs : List Char} (spelled : token.Numeral cs) :
    ∃ c more, cs = c :: more ∧ Token.isGap c = false := by
  obtain ⟨negative, size, _, _⟩ := spelled
  cases negative with
  | true => exact ⟨_, _, rfl, by decide⟩
  | false =>
    obtain ⟨c, more, shape, digit⟩ := digits_eq_cons size
    refine ⟨c, _, by simp [shape]; rfl, ?_⟩
    rw [Bool.eq_false_iff]
    intro gap
    simp only [Token.isGap, Bool.or_eq_true, decide_eq_true_eq] at gap
    rcases gap with ((rfl | rfl) | rfl) | rfl <;> cases digit

/-- A token that is read first comes before the tokens of what follows it. -/
theorem upTo_token {bound : Nat} {cs rest : List Char} {token : Token} {tokens : List Token}
    (shape : ∃ c more, cs = c :: more ∧ Token.isGap c = false) (reads : Token.first? (cs ++ rest) = some (token, rest))
    (others : ∀ bound, rest.length ≤ bound → Token.upTo bound rest = some tokens) (enough : (cs ++ rest).length ≤ bound) :
    Token.upTo bound (cs ++ rest) = some (token :: tokens) := by
  obtain ⟨c, more, rfl, solid⟩ := shape
  cases bound with
  | zero => simp at enough
  | succ bound =>
    have rest' := others bound (by simp only [List.cons_append, List.length_cons, List.length_append] at enough; omega)
    simp only [List.cons_append] at reads ⊢
    simp [Token.upTo, solid, reads, rest']

/-- A text is cut into the tokens that it writes. -/
theorem Token.Layout.upTo {tokens : List Token} {cs : List Char} (layout : Token.Layout tokens cs) :
    ∀ bound, cs.length ≤ bound → Token.upTo bound cs = some tokens := by
  induction layout with
  | nil => intro bound _; cases bound <;> rfl
  | gap blank rest ih =>
    intro bound enough
    cases bound with
    | zero => simp at enough
    | succ bound =>
      rw [Token.upTo, if_pos blank]
      exact ih bound (by simpa using enough)
  | token first rest ih => exact fun bound enough => upTo_token first.shape (first.first? _) ih enough
  | numeral first ends rest ih => exact fun bound enough => upTo_token first.shape (first.first? ends) ih enough

/-! ### Documents and their tokens -/

namespace Document

mutual

/-- The tokens that a document is written with. -/
def tokens : Document → List Token
  | .null => [.null]
  | .flag value => [.flag value]
  | .whole negative size => [.whole negative size]
  | .fraction => [.fraction]
  | .text content => [.text content]
  | .list [] => [.openBracket, .closeBracket]
  | .list (first :: rest) => .openBracket :: (tokens first ++ itemTokens rest)
  | .record [] => [.openBrace, .closeBrace]
  | .record ((name, value) :: rest) => .openBrace :: .text name :: .colon :: (tokens value ++ memberTokens rest)

/-- The tokens of the items after the first, and the closing bracket. -/
def itemTokens : List Document → List Token
  | [] => [.closeBracket]
  | item :: rest => .comma :: (tokens item ++ itemTokens rest)

/-- The tokens of the members after the first, and the closing brace. -/
def memberTokens : List (Option String × Document) → List Token
  | [] => [.closeBrace]
  | (name, value) :: rest => .comma :: .text name :: .colon :: (tokens value ++ memberTokens rest)

end

/-- A text writes a document. -/
def Writes (document : Document) (text : String) : Prop := Token.Layout document.tokens text.toList

/-- No value begins with what closes a list or record. -/
theorem tokens_eq_cons (document : Document) :
    ∃ first rest, document.tokens = first :: rest ∧ first ≠ .closeBracket ∧ first ≠ .closeBrace := by
  fun_cases tokens document <;> exact ⟨_, _, rfl, by simp, by simp⟩

mutual

/-- The tokens of a document are put together to it. -/
theorem value?_tokens (rest : List Token) :
    ∀ (document : Document) (bound : Nat), document.tokens.length ≤ bound →
      value? bound (document.tokens ++ rest) = some (document, rest)
  | document, 0, enough => by
    obtain ⟨first, more, shape, _⟩ := tokens_eq_cons document
    simp [shape] at enough
  | .null, bound + 1, _ => rfl
  | .flag value, bound + 1, _ => rfl
  | .whole negative size, bound + 1, _ => rfl
  | .fraction, bound + 1, _ => rfl
  | .text content, bound + 1, _ => rfl
  | .list [], bound + 1, _ => rfl
  | .list (first :: others), bound + 1, enough => by
    have items := items?_tokens rest first others bound (by simpa [tokens] using enough)
    obtain ⟨token, more, shape, other, _⟩ := tokens_eq_cons first
    rw [tokens, List.cons_append, value?]
    · rw [items]
      rfl
    · rintro after same
      simp [shape] at same
      exact other same.1
  | .record [], bound + 1, _ => rfl
  | .record ((name, value) :: others), bound + 1, enough => by
    have members := members?_tokens rest name value others bound (by simpa [tokens] using enough)
    simp only [List.cons_append, List.append_assoc] at members
    simp [tokens, value?, members]

theorem items?_tokens (rest : List Token) :
    ∀ (first : Document) (others : List Document) (bound : Nat), (tokens first ++ itemTokens others).length ≤ bound →
      items? bound (tokens first ++ itemTokens others ++ rest) = some (first :: others, rest)
  | first, others, 0, enough => by
    obtain ⟨token, more, shape, _⟩ := tokens_eq_cons first
    simp [shape] at enough
  | first, [], bound + 1, enough => by
    have item := value?_tokens (.closeBracket :: rest) first bound (by simpa [itemTokens] using enough)
    simp [itemTokens, items?, item]
  | first, second :: others, bound + 1, enough => by
    simp only [itemTokens, List.length_append, List.length_cons] at enough
    have item := value?_tokens (.comma :: (tokens second ++ itemTokens others ++ rest)) first bound (by omega)
    have items := items?_tokens rest second others bound (by rw [List.length_append]; omega)
    simp only [List.append_assoc] at item items
    simp [itemTokens, items?, item, items]

theorem members?_tokens (rest : List Token) :
    ∀ (name : Option String) (first : Document) (others : List (Option String × Document)) (bound : Nat),
      (.text name :: .colon :: (tokens first ++ memberTokens others)).length ≤ bound →
        members? bound (.text name :: .colon :: (tokens first ++ memberTokens others) ++ rest) =
          some ((name, first) :: others, rest)
  | name, first, others, 0, enough => by simp at enough
  | name, first, [], bound + 1, enough => by
    simp only [memberTokens, List.length_cons, List.length_append] at enough
    have member := value?_tokens (.closeBrace :: rest) first bound (by omega)
    simp [memberTokens, members?, member]
  | name, first, (name', second) :: others, bound + 1, enough => by
    simp only [memberTokens, List.length_cons, List.length_append] at enough
    have member := value?_tokens (.comma :: .text name' :: .colon :: (tokens second ++ memberTokens others ++ rest))
      first bound (by omega)
    have members := members?_tokens rest name' second others bound (by
      rw [List.length_cons, List.length_cons, List.length_append]
      omega)
    simp only [List.append_assoc, List.cons_append] at member members
    simp [memberTokens, members?, member, members]

end

/-- A text that writes a document is read as it. -/
theorem Writes.ofText? {document : Document} {text : String} (writes : document.Writes text) :
    Document.ofText? text = some document := by
  have cut : Token.ofText? text.toList = some document.tokens := writes.upTo _ (Nat.le_refl _)
  have parsed := value?_tokens [] document (document.tokens.length + 1) (Nat.le_succ _)
  rw [List.append_nil] at parsed
  simp only [Document.ofText?, cut, Option.bind_eq_bind, Option.bind_some, ofTokens?, parsed]

end Document

/-! ### The compact text of a value -/

mutual

/-- What a value says as a document. -/
def document : Json → Document
  | .null => .null
  | .flag value => .flag value
  | .number (.ofNat n) => .whole false n
  | .number (.negSucc n) => .whole true (n + 1)
  | .text value => .text (some value)
  | .list items => .list (itemDocuments items)
  | .record members => .record (memberDocuments members)

/-- What the items of a list say. -/
def itemDocuments : List Json → List Document
  | [] => []
  | item :: rest => document item :: itemDocuments rest

/-- What the members of a record say. -/
def memberDocuments : List (String × Json) → List (Option String × Document)
  | [] => []
  | (name, value) :: rest => (some name, document value) :: memberDocuments rest

end

theorem characters?_char (c : Char) (rest : List Piece) :
    Token.characters? (.char c :: rest) = (Token.characters? rest).map (c :: ·) := by
  rw [Token.characters?]
  cases Token.characters? rest <;> rfl

/-- A control character needs no partner. -/
theorem characters?_unit {code : Nat} (small : code < 32) (rest : List Piece) :
    Token.characters? (.unit code :: rest) = (Token.characters? rest).map (Char.ofNat code :: ·) := by
  have high : ¬ 0xD800 ≤ code := by omega
  have low : ¬ 0xDC00 ≤ code := by omega
  have apart : ¬ (0xD800 ≤ code ∧ code ≤ 0xDFFF) := fun within => high within.1
  cases rest with
  | nil => simp [Token.characters?, high]
  | cons first rest =>
    cases first with
    | char c =>
      simp only [Token.characters?, apart, ↓reduceIte]
      cases Token.characters? rest <;> rfl
    | unit other =>
      rw [Token.characters?, if_neg fun within => high within.1, if_neg fun within => low within.1]
      cases Token.characters? (.unit other :: rest) <;> rfl

theorem characters?_piece (cs : List Char) : Token.characters? (cs.map piece) = some cs := by
  induction cs with
  | nil => rfl
  | cons c cs ih =>
    rw [List.map_cons, piece]
    split
    next control => rw [characters?_unit control.1, ih, Char.ofNat_toNat]; rfl
    next => rw [characters?_char, ih]; rfl

theorem quote_spelling (name : String) : Token.Spelling (.text (some name)) (quote name) := by
  have spelled := Token.Spelling.text (pieces_spellings name.toList)
  rwa [characters?_piece, Option.map_some, String.ofList_toList] at spelled

theorem numeral_digits (n : Nat) : Token.Numeral (.whole false n) (digits n) := by
  simpa using Token.Numeral.mk false n .absent .absent

theorem numeral_negative (n : Nat) : Token.Numeral (.whole true n) ('-' :: digits n) := by
  simpa using Token.Numeral.mk true n .absent .absent

theorem ends_items (items : List Json) (rest : List Char) : Ends (printItems items ++ rest) := by
  cases items <;> simp [printItems, Ends]

theorem ends_members (members : List (String × Json)) (rest : List Char) : Ends (printMembers members ++ rest) := by
  cases members <;> simp [printMembers, Ends]

namespace Token.Layout
variable {tokens : List Token} {rest : List Char}

theorem openBrace (layout : Layout tokens rest) : Layout (.openBrace :: tokens) ('{' :: rest) := .token .openBrace layout

theorem closeBrace (layout : Layout tokens rest) : Layout (.closeBrace :: tokens) ('}' :: rest) :=
  .token .closeBrace layout

theorem openBracket (layout : Layout tokens rest) : Layout (.openBracket :: tokens) ('[' :: rest) :=
  .token .openBracket layout

theorem closeBracket (layout : Layout tokens rest) : Layout (.closeBracket :: tokens) (']' :: rest) :=
  .token .closeBracket layout

theorem comma (layout : Layout tokens rest) : Layout (.comma :: tokens) (',' :: rest) := .token .comma layout

theorem named (layout : Layout tokens rest) (name : String) :
    Layout (.text (some name) :: .colon :: tokens) (quote name ++ ':' :: rest) :=
  .token (quote_spelling name) (.token .colon layout)

end Token.Layout

mutual

/-- The compact text of a value writes its document. -/
theorem layout_print {rest : List Char} {ts : List Token} (layout : Token.Layout ts rest) (ends : Ends rest) :
    ∀ value : Json, Token.Layout (value.document.tokens ++ ts) (value.print ++ rest)
  | .null => .token .null layout
  | .flag true => .token .yes layout
  | .flag false => .token .no layout
  | .number (.ofNat n) => .numeral (numeral_digits n) ends layout
  | .number (.negSucc n) => .numeral (numeral_negative (n + 1)) ends layout
  | .text name => .token (quote_spelling name) layout
  | .list [] => layout.closeBracket.openBracket
  | .list (first :: others) => by
    have items := layout_items layout others
    have all := layout_print items (ends_items others rest) first
    simpa only [print, document, itemDocuments, Document.tokens, List.cons_append, List.append_assoc] using all.openBracket
  | .record [] => layout.closeBrace.openBrace
  | .record ((name, value) :: others) => by
    have members := layout_members layout others
    have first := layout_print members (ends_members others rest) value
    simpa only [print, document, memberDocuments, Document.tokens, List.cons_append, List.append_assoc] using
      (first.named name).openBrace

theorem layout_items {rest : List Char} {ts : List Token} (layout : Token.Layout ts rest) :
    ∀ items : List Json, Token.Layout (Document.itemTokens (itemDocuments items) ++ ts) (printItems items ++ rest)
  | [] => layout.closeBracket
  | item :: others => by
    have items := layout_items layout others
    have all := layout_print items (ends_items others rest) item
    simpa only [printItems, itemDocuments, Document.itemTokens, List.cons_append, List.append_assoc] using all.comma

theorem layout_members {rest : List Char} {ts : List Token} (layout : Token.Layout ts rest) :
    ∀ members : List (String × Json),
      Token.Layout (Document.memberTokens (memberDocuments members) ++ ts) (printMembers members ++ rest)
  | [] => layout.closeBrace
  | (name, value) :: others => by
    have members := layout_members layout others
    have first := layout_print members (ends_members others rest) value
    simpa only [printMembers, memberDocuments, Document.memberTokens, List.cons_append, List.append_assoc] using
      (first.named name).comma

end

/-- Blanks write no token, and do not go on with a number. -/
theorem layout_blank : ∀ {cs : List Char}, (∀ c ∈ cs, Token.isGap c = true) → Token.Layout [] cs ∧ Ends cs
  | [], _ => ⟨.nil, by simp [Ends]⟩
  | c :: cs, blank => by
    have first := blank c (by simp)
    refine ⟨.gap first (layout_blank fun other member => blank other (List.mem_cons_of_mem _ member)).1, ?_⟩
    simp only [Token.isGap, Bool.or_eq_true, decide_eq_true_eq] at first
    simp only [Ends, List.head?_cons, Option.mem_def, Option.some.injEq]
    rintro _ rfl
    rcases first with ((rfl | rfl) | rfl) | rfl <;> decide

/-- The compact text of a value writes its document, with any blanks after it. -/
theorem writes_toText (value : Json) {after : String} (blank : ∀ c ∈ after.toList, Token.isGap c = true) :
    value.document.Writes (value.toText ++ after) := by
  obtain ⟨layout, ends⟩ := layout_blank blank
  have text : (value.toText ++ after).toList = value.print ++ after.toList := by simp [toText]
  have printed := layout_print layout ends value
  rwa [List.append_nil, ← text] at printed

end Pkgset.Json
