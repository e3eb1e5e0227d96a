import Pkgset.Json.Document
import Mathlib.Tactic.IntervalCases

/-!
# A JSON text says where it ends

The text of a value, with anything after it that does not go on with a digit, belongs to
that value alone. Quoted texts are read back to see this; the other values are told
apart by their first characters.
-/

namespace Pkgset

namespace Bytes

theorem hexValue?_hexDigit {n : Nat} (small : n < 16) : hexValue? (hexDigit n) = some n := by
  interval_cases n <;> decide

end Bytes

namespace Json

/-! ### Quoted texts -/

/-- The piece as which a character is read that was printed between quotes. -/
def piece (c : Char) : Piece :=
  if c.toNat < 32 ∧ c ≠ '\x08' ∧ c ≠ '\t' ∧ c ≠ '\n' ∧ c ≠ '\x0c' ∧ c ≠ '\r' then .unit c.toNat else .char c

theorem piece_injective : Function.Injective piece := by
  intro c d same
  unfold piece at same
  split at same <;> split at same
  · exact Char.toNat_inj.mp (Piece.unit.inj same)
  · cases same
  · cases same
  · exact Piece.char.inj same

/-- The ways to spell a piece of a quoted text. -/
inductive Piece.Spelling : Piece → List Char → Prop
  | plain {c : Char} (quote : c ≠ '"') (backslash : c ≠ '\\') (printable : ¬ c.toNat < 32) : Spelling (.char c) [c]
  | short {c plain : Char} (stands : Token.escaped? c = some plain) : Spelling (.char plain) ['\\', c]
  | unit {a b c d : Char} {code : Nat} (digits : Token.unit? a b c d = some code) :
    Spelling (.unit code) ['\\', 'u', a, b, c, d]

/-- The ways to spell the pieces of a quoted text one after another. -/
inductive Piece.Spellings : List Piece → List Char → Prop
  | nil : Spellings [] []
  | cons {piece : Piece} {pieces : List Piece} {cs others : List Char} (first : piece.Spelling cs)
    (rest : Spellings pieces others) : Spellings (piece :: pieces) (cs ++ others)

theorem unit?_escape {n : Nat} (small : n < 32) :
    Token.unit? '0' '0' (Bytes.hexDigit (n / 16)) (Bytes.hexDigit (n % 16)) = some n := by
  interval_cases n <;> decide

/-- A character that is not escaped, before whatever comes after it. -/
theorem pieces?_plain {c : Char} (quote : c ≠ '"') (backslash : c ≠ '\\') (printable : ¬ c.toNat < 32) (rest : List Char) :
    Token.pieces? (c :: rest) = (Token.pieces? rest).map fun (others, after) => (.char c :: others, after) := by
  rw [Token.pieces?]
  · simp only [backslash, printable, or_self, ↓reduceIte]
    cases Token.pieces? rest <;> rfl
  all_goals simp_all

/-- A short escape, before whatever comes after it. -/
theorem pieces?_short {c plain : Char} (short : c ≠ 'u') (stands : Token.escaped? c = some plain) (rest : List Char) :
    Token.pieces? ('\\' :: c :: rest) = (Token.pieces? rest).map fun (others, after) => (.char plain :: others, after) := by
  rw [Token.pieces?]
  · simp only [stands, Option.bind_eq_bind, Option.bind_some]
    cases Token.pieces? rest <;> rfl
  all_goals simp_all

theorem Piece.Spelling.pieces? {piece : Piece} {cs : List Char} (spelled : piece.Spelling cs) (rest : List Char) :
    Token.pieces? (cs ++ rest) = (Token.pieces? rest).map fun (others, after) => (piece :: others, after) := by
  cases spelled with
  | plain quote backslash printable => exact pieces?_plain quote backslash printable rest
  | short stands =>
    refine pieces?_short ?_ stands rest
    rintro rfl
    simp [Token.escaped?] at stands
  | unit digits =>
    simp only [List.cons_append, List.nil_append, Token.pieces?, digits]
    cases Token.pieces? rest <;> rfl

/-- A quoted text is read as the pieces that it spells, up to the closing quote. -/
theorem Piece.Spellings.pieces? {pieces : List Piece} {cs : List Char} (spelled : Piece.Spellings pieces cs)
    (rest : List Char) : Token.pieces? (cs ++ '"' :: rest) = some (pieces, rest) := by
  induction spelled with
  | nil => rw [List.nil_append, Token.pieces?]
  | cons first others ih => rw [List.append_assoc, first.pieces?, ih]; rfl

/-- A character is printed as its piece is spelled. -/
theorem piece_spelling (c : Char) : (piece c).Spelling (escape c) := by
  fun_cases escape c with
  | case8 quote backslash back tab line feed carriage control =>
    have unit : piece c = .unit c.toNat := by simp [piece, control, back, tab, line, feed, carriage]
    rw [unit]
    exact .unit (unit?_escape control)
  | case9 quote backslash back tab line feed carriage printable =>
    have plain : piece c = .char c := by simp [piece, printable]
    rw [plain]
    exact .plain quote backslash printable
  | _ =>
    subst_vars
    exact .short (by decide)

theorem pieces_spellings : ∀ cs : List Char, Piece.Spellings (cs.map piece) (cs.flatMap escape)
  | [] => .nil
  | c :: cs => .cons (piece_spelling c) (pieces_spellings cs)

/-- What is printed between quotes is read back up to the closing quote. -/
theorem pieces?_quoted (cs rest : List Char) :
    Token.pieces? (cs.flatMap escape ++ '"' :: rest) = some (cs.map piece, rest) :=
  (pieces_spellings cs).pieces? rest

theorem quote_append_inj {name other : String} {s t : List Char} (same : quote name ++ s = quote other ++ t) :
    name = other ∧ s = t := by
  simp only [quote, List.cons_append, List.append_assoc, List.nil_append, List.cons.injEq, true_and] at same
  have read := congrArg Token.pieces? same
  rw [pieces?_quoted, pieces?_quoted, Option.some.injEq, Prod.mk.injEq] at read
  exact ⟨String.toList_inj.mp ((List.map_inj_right piece_injective).mp read.1), read.2⟩

end Json

/-! ### Numbers -/

namespace Decimal

/-- No digit comes first. -/
def Stops (rest : List Char) : Prop := ∀ c ∈ rest.head?, c.isDigit = false

theorem isDigit_digit {n : Nat} (small : n < 10) : (digit n).isDigit = true := by
  interval_cases n <;> decide

theorem value_digit {n : Nat} (small : n < 10) : value (digit n) = n := by
  interval_cases n <;> decide

theorem isDigit_of_mem_digits (n : Nat) : ∀ c ∈ digits n, c.isDigit = true := by
  fun_induction digits n with
  | case1 n small => simpa using isDigit_digit small
  | case2 n large ih =>
    intro c member
    rcases List.mem_append.mp member with earlier | last
    · exact ih c earlier
    · rw [List.mem_singleton.mp last]
      exact isDigit_digit (Nat.mod_lt n (by decide))

theorem ofDigits_digits (n : Nat) : ofDigits (digits n) = n := by
  fun_induction digits n with
  | case1 n small => simp [ofDigits, value_digit small]
  | case2 n large ih =>
    have last := value_digit (Nat.mod_lt n (by decide : 0 < 10))
    simp only [ofDigits, List.foldl_append, List.foldl_cons, List.foldl_nil] at ih ⊢
    rw [ih, last]
    omega

theorem takeWhile_digits (n : Nat) {rest : List Char} (stops : Stops rest) :
    (digits n ++ rest).takeWhile Char.isDigit = digits n := by
  rw [List.takeWhile_append_of_pos (isDigit_of_mem_digits n)]
  cases rest with
  | nil => simp
  | cons c rest => simp [stops c (by simp)]

/-- The digits of a number end where no digit follows. -/
theorem digits_append_inj {m n : Nat} {s t : List Char} (stops : Stops s) (stops' : Stops t)
    (same : digits m ++ s = digits n ++ t) : m = n ∧ s = t := by
  have alike : digits m = digits n := by rw [← takeWhile_digits m stops, same, takeWhile_digits n stops']
  refine ⟨by rw [← ofDigits_digits m, alike, ofDigits_digits], ?_⟩
  rw [alike] at same
  exact List.append_cancel_left same

theorem digits_eq_cons (n : Nat) : ∃ c rest, digits n = c :: rest ∧ c.isDigit = true := by
  cases shape : digits n with
  | nil =>
    have value := ofDigits_digits n
    obtain rfl : n = 0 := by simpa [shape, ofDigits] using value.symm
    simp [digits] at shape
  | cons c rest => exact ⟨c, rest, rfl, isDigit_of_mem_digits n c (by simp [shape])⟩

theorem ofInt_append_inj {i j : Int} {s t : List Char} (stops : Stops s) (stops' : Stops t)
    (same : ofInt i ++ s = ofInt j ++ t) : i = j ∧ s = t := by
  have signed {n : Nat} {after rest : List Char} : digits n ++ after ≠ '-' :: rest := by
    obtain ⟨c, more, shape, digit⟩ := digits_eq_cons n
    rintro clash
    rw [shape, List.cons_append, List.cons.injEq] at clash
    simp [clash.1] at digit
  cases i with
  | ofNat m =>
    cases j with
    | ofNat n =>
      obtain ⟨rfl, rest⟩ := digits_append_inj stops stops' same
      exact ⟨rfl, rest⟩
    | negSucc n => exact absurd same signed
  | negSucc m =>
    cases j with
    | ofNat n => exact absurd same.symm signed
    | negSucc n =>
      obtain ⟨same, rest⟩ := digits_append_inj stops stops' (List.cons.inj same).2
      exact ⟨by rw [Nat.succ_injective same], rest⟩

end Decimal

/-! ### Values -/

namespace Json
open Decimal

/-- What the first character of a value's text says of the value; a bracket or brace that
    closes, a colon and a comma begin none. -/
def kind (c : Char) : Nat :=
  if c = 'n' then 0 else if c = 't' then 1 else if c = 'f' then 2 else if c = '"' then 3
  else if c = '[' then 4 else if c = '{' then 5 else if c = '-' ∨ c.isDigit = true then 6 else 7

/-- The kind of the first character of a value's text. -/
def opening : Json → Nat
  | .null => 0
  | .flag true => 1
  | .flag false => 2
  | .text _ => 3
  | .list _ => 4
  | .record _ => 5
  | .number _ => 6

theorem kind_of_isDigit {c : Char} (digit : c.isDigit = true) : kind c = 6 := by
  have others : c ≠ 'n' ∧ c ≠ 't' ∧ c ≠ 'f' ∧ c ≠ '"' ∧ c ≠ '[' ∧ c ≠ '{' := by
    refine ⟨?_, ?_, ?_, ?_, ?_, ?_⟩ <;> rintro rfl <;> cases digit
  simp [kind, others, digit]

/-- The text of a value is not empty, and its first character tells its kind. -/
theorem print_eq_cons (value : Json) : ∃ c rest, value.print = c :: rest ∧ kind c = value.opening := by
  cases value with
  | number i =>
    cases i with
    | ofNat n =>
      obtain ⟨c, rest, shape, digit⟩ := digits_eq_cons n
      exact ⟨c, rest, by rw [print, ofInt, shape], kind_of_isDigit digit⟩
    | negSucc n => exact ⟨'-', _, by rw [print, ofInt], rfl⟩
  | flag b => cases b <;> exact ⟨_, _, by rw [print], rfl⟩
  | list items => cases items <;> exact ⟨_, _, by rw [print], rfl⟩
  | record members => cases members <;> exact ⟨_, _, by rw [print], rfl⟩
  | text value => exact ⟨_, _, by rw [print, quote], rfl⟩
  | null => exact ⟨_, _, by rw [print], rfl⟩

theorem opening_eq {a b : Json} {s t : List Char} (same : a.print ++ s = b.print ++ t) : a.opening = b.opening := by
  obtain ⟨c, rest, shape, kind⟩ := print_eq_cons a
  obtain ⟨d, rest', shape', kind'⟩ := print_eq_cons b
  rw [shape, shape', List.cons_append, List.cons_append, List.cons.injEq] at same
  rw [← kind, ← kind', same.1]

/-- No value begins with what closes a list or record. -/
theorem print_ne_cons {value : Json} {c : Char} {s t : List Char} (closes : kind c = 7) : value.print ++ s ≠ c :: t := by
  obtain ⟨d, rest, shape, kind'⟩ := print_eq_cons value
  rintro clash
  rw [shape, List.cons_append, List.cons.injEq] at clash
  rw [clash.1, closes] at kind'
  fun_cases opening value <;> cases kind'

theorem stops_items (items : List Json) (rest : List Char) : Stops (printItems items ++ rest) := by
  cases items <;> simp [printItems, Stops]

theorem stops_members (members : List (String × Json)) (rest : List Char) : Stops (printMembers members ++ rest) := by
  cases members <;> simp [printMembers, Stops]

mutual

/-- The text of a value belongs to that value alone, if no digit comes after it. -/
theorem print_append_inj {s t : List Char} (stops : Stops s) (stops' : Stops t) :
    ∀ a b : Json, a.print ++ s = b.print ++ t → a = b ∧ s = t
  | .null, b, same => by
    have kind := opening_eq same
    cases b with
    | null => exact ⟨rfl, by simpa [print] using same⟩
    | flag value => cases value <;> cases kind
    | _ => cases kind
  | .flag true, b, same => by
    have kind := opening_eq same
    cases b with
    | flag value =>
      cases value
      · cases kind
      · exact ⟨rfl, by simpa [print] using same⟩
    | _ => cases kind
  | .flag false, b, same => by
    have kind := opening_eq same
    cases b with
    | flag value =>
      cases value
      · exact ⟨rfl, by simpa [print] using same⟩
      · cases kind
    | _ => cases kind
  | .number i, b, same => by
    have kind := opening_eq same
    cases b with
    | number j =>
      rw [print, print] at same
      obtain ⟨rfl, rest⟩ := ofInt_append_inj stops stops' same
      exact ⟨rfl, rest⟩
    | flag value => cases value <;> cases kind
    | _ => cases kind
  | .text name, b, same => by
    have kind := opening_eq same
    cases b with
    | text other =>
      rw [print, print] at same
      obtain ⟨rfl, rest⟩ := quote_append_inj same
      exact ⟨rfl, rest⟩
    | flag value => cases value <;> cases kind
    | _ => cases kind
  | .list items, b, same => by
    have kind := opening_eq same
    cases b with
    | list others => exact (list_append_inj items others same).imp_left (congrArg Json.list)
    | flag value => cases value <;> cases kind
    | _ => cases kind
  | .record members, b, same => by
    have kind := opening_eq same
    cases b with
    | record others => exact (record_append_inj members others same).imp_left (congrArg Json.record)
    | flag value => cases value <;> cases kind
    | _ => cases kind

theorem list_append_inj {s t : List Char} :
    ∀ items others : List Json, print (.list items) ++ s = print (.list others) ++ t → items = others ∧ s = t
  | [], [], same => ⟨rfl, by simpa [print] using same⟩
  | [], other :: others, same => by
    simp only [print, List.cons_append, List.nil_append, List.append_assoc, List.cons.injEq, true_and] at same
    exact absurd same.symm (print_ne_cons rfl)
  | item :: items, [], same => by
    simp only [print, List.cons_append, List.nil_append, List.append_assoc, List.cons.injEq, true_and] at same
    exact absurd same (print_ne_cons rfl)
  | item :: items, other :: others, same => by
    simp only [print, List.cons_append, List.append_assoc, List.cons.injEq, true_and] at same
    obtain ⟨rfl, after⟩ := print_append_inj (stops_items items s) (stops_items others t) item other same
    exact (items_append_inj items others after).imp_left (congrArg (item :: ·))

theorem items_append_inj {s t : List Char} :
    ∀ items others : List Json, printItems items ++ s = printItems others ++ t → items = others ∧ s = t
  | [], [], same => ⟨rfl, by simpa [printItems] using same⟩
  | [], other :: others, same => by simp [printItems] at same
  | item :: items, [], same => by simp [printItems] at same
  | item :: items, other :: others, same => by
    simp only [printItems, List.cons_append, List.append_assoc, List.cons.injEq, true_and] at same
    obtain ⟨rfl, after⟩ := print_append_inj (stops_items items s) (stops_items others t) item other same
    exact (items_append_inj items others after).imp_left (congrArg (item :: ·))

theorem record_append_inj {s t : List Char} :
    ∀ members others : List (String × Json),
      print (.record members) ++ s = print (.record others) ++ t → members = others ∧ s = t
  | [], [], same => ⟨rfl, by simpa [print] using same⟩
  | [], (name, other) :: others, same => by simp [print, quote] at same
  | (name, value) :: members, [], same => by simp [print, quote] at same
  | (name, value) :: members, (name', value') :: others, same => by
    simp only [print, List.cons_append, List.append_assoc, List.cons.injEq, true_and] at same
    obtain ⟨rfl, after⟩ := quote_append_inj same
    obtain ⟨rfl, rest⟩ := print_append_inj (stops_members members s) (stops_members others t) value value'
      (List.cons.inj after).2
    exact (members_append_inj members others rest).imp_left (congrArg ((name, value) :: ·))

theorem members_append_inj {s t : List Char} :
    ∀ members others : List (String × Json),
      printMembers members ++ s = printMembers others ++ t → members = others ∧ s = t
  | [], [], same => ⟨rfl, by simpa [printMembers] using same⟩
  | [], (name, other) :: others, same => by simp [printMembers] at same
  | (name, value) :: members, [], same => by simp [printMembers] at same
  | (name, value) :: members, (name', value') :: others, same => by
    simp only [printMembers, List.cons_append, List.append_assoc, List.cons.injEq, true_and] at same
    obtain ⟨rfl, after⟩ := quote_append_inj same
    obtain ⟨rfl, rest⟩ := print_append_inj (stops_members members s) (stops_members others t) value value'
      (List.cons.inj after).2
    exact (members_append_inj members others rest).imp_left (congrArg ((name, value) :: ·))

end

theorem toText_injective : Function.Injective toText := by
  intro a b same
  have alike : a.print = b.print := String.ofList_injective same
  exact (print_append_inj (s := []) (t := []) (by simp [Stops]) (by simp [Stops]) a b (by simp [alike])).1

end Json
end Pkgset
