import Mathlib.Data.List.Chain
import UiMarkup.Proofs.Printing
import UiMarkup.Proofs.Tokens

/-!
# Printed text falls into its pieces

The lexer skips the blanks and comments of a printed text and reads each piece as one token, since
what follows a piece never continues it.

* `tokensFrom_trivia`: blanks and comments are skipped.
* `read_piece`: a piece is read as one lexeme, if what follows does not continue it.
* `tokensFrom_laid`: the tokens of a printed text are its pieces.
-/

namespace UiMarkup

/-! ## Blanks and comments -/

theorem read_blank (p : Profile) {c : Char} (hc : Text.isBlank c) (s : List Char) :
    Lexeme.read p c s = ⟨.blank, c :: s.takeWhile Text.isBlank, s.dropWhile Text.isBlank⟩ := by
  rw [Lexeme.read, if_pos hc, Lexeme.run]

/-- Blanks may be skipped one by one. -/
theorem tokensFrom_blank (p : Profile) (position : Nat) {c : Char} (hc : Text.isBlank c)
    (s : List Char) : tokensFrom p position (c :: s) = tokensFrom p (position + 1) s := by
  rw [tokensFrom_of_read (read_blank p hc s) (by simp)]
  cases s with
  | nil => rfl
  | cons c' s =>
    by_cases hc' : Text.isBlank c'
    · rw [tokensFrom_of_read (read_blank p hc' s) (by simp), List.takeWhile_cons_of_pos hc',
        List.dropWhile_cons_of_pos hc', List.length_cons, Nat.add_comm _ 1, ← Nat.add_assoc]
    · rw [List.takeWhile_cons_of_neg hc', List.dropWhile_cons_of_neg hc', List.length_singleton]

theorem tokensFrom_lineComment (p : Profile) (position : Nat) {body : List Char}
    (hb : '\n' ∉ body) {s : List Char} (hs : ∀ c ∈ s.head?, c = '\n') :
    tokensFrom p position ('/' :: '/' :: (body ++ s)) =
      tokensFrom p (position + (body.length + 2)) s := by
  have hbody : ∀ c ∈ body, (c != '\n') = true := by
    intro c hc
    rw [bne_iff_ne]
    exact fun h => hb (h ▸ hc)
  have hread : Lexeme.read p '/' ('/' :: (body ++ s)) =
      ⟨.comment, '/' :: '/' :: body, s⟩ := by
    rw [Lexeme.read, if_neg (by decide), if_pos rfl, Lexeme.slash,
      List.takeWhile_append_of_pos hbody, List.dropWhile_append_of_pos hbody]
    cases s with
    | nil => simp
    | cons c s =>
      obtain rfl := hs c rfl
      simp
  rw [tokensFrom_of_read hread (by simp), List.length_cons, List.length_cons]

theorem blockCommentBody_append_end {body : List Char} (hb : ¬ ['*', '/'] <:+: body)
    (s : List Char) :
    Lexeme.blockCommentBody (body ++ '*' :: '/' :: s) = (body ++ ['*', '/'], s) := by
  induction body with
  | nil => simp [Lexeme.blockCommentBody]
  | cons c body ih =>
    have hrest : ¬ ['*', '/'] <:+: body := fun h => hb (h.trans (List.suffix_cons c body).isInfix)
    rw [List.cons_append, Lexeme.blockCommentBody, ih hrest]
    · rfl
    · rintro s' rfl hs'
      -- the comment does not end here, since its end would stand in the body
      cases body with
      | nil => simp at hs'
      | cons c' body =>
        obtain ⟨rfl, -⟩ := List.cons.inj hs'
        exact hb ⟨[], body, rfl⟩

theorem tokensFrom_blockComment (p : Profile) (position : Nat) {body : List Char}
    (hb : ¬ ['*', '/'] <:+: body) (s : List Char) :
    tokensFrom p position ('/' :: '*' :: (body ++ '*' :: '/' :: s)) =
      tokensFrom p (position + (body.length + 4)) s := by
  have hread : Lexeme.read p '/' ('*' :: (body ++ '*' :: '/' :: s)) =
      ⟨.comment, '/' :: '*' :: (body ++ ['*', '/']), s⟩ := by
    rw [Lexeme.read, if_neg (by decide), if_pos rfl, Lexeme.slash, Lexeme.enclosed,
      blockCommentBody_append_end hb]
    rfl
  rw [tokensFrom_of_read hread (by simp)]
  simp

/-- Blanks and comments are skipped. -/
theorem tokensFrom_trivia (p : Profile) {t : List Char} (h : Trivia t) (position : Nat)
    (s : List Char) : tokensFrom p position (t ++ s) = tokensFrom p (position + t.length) s := by
  induction h generalizing position with
  | nil => simp
  | blank hc _ ih =>
    rw [List.cons_append, tokensFrom_blank p position hc, ih, List.length_cons]
    congr 1
    omega
  | line hb _ ih =>
    simp only [List.cons_append, List.append_assoc, List.length_cons, List.length_append]
    rw [tokensFrom_lineComment p position hb (by simp), tokensFrom_blank p _ (by decide), ih]
    congr 1
    omega
  | block hb _ ih =>
    simp only [List.cons_append, List.append_assoc, List.length_cons, List.length_append]
    rw [tokensFrom_blockComment p position hb, ih]
    congr 1
    omega

/-! ## Pieces -/

/-- Pieces that the lexer reads as one token each. The digits of an integer are within the limit. -/
inductive Piece.Valid (p : Profile) : Piece → Prop where
  | identifier {name : List Char} (h : p.isIdentifier name) : Valid p (identifier name)
  | integer {digits : List Char} (h : Text.isNumeral digits)
      (hle : digits.length ≤ Literal.maxIntegerDigits) : Valid p (number digits)
  | decimal {whole fraction : List Char} (hw : Text.isNumeral whole)
      (hf : Text.isNumeral fraction) : Valid p (number (whole ++ '.' :: fraction))
  | quoted {quote : Char} (h : quote = '"' ∨ quote = '\'') (s : String) :
      Valid p (quoted quote s)
  | symbol {c : Char} (h : c ∈ Lexeme.symbols) : Valid p (symbol c)
  | minus : Valid p minus

/-- What follows a piece of the given kind does not continue it. -/
def Stops (p : Profile) (kind : TokenKind) (rest : List Char) : Prop :=
  ∀ c ∈ rest.head?, (kind = .identifier → p.continuesIdentifier c = false) ∧
    (kind = .number → Text.isDigit c = false ∧ c ≠ '.')

/-- A character that starts an identifier starts nothing else. -/
theorem class_of_startsIdentifier {p : Profile} {c : Char} (h : p.startsIdentifier c) :
    Text.isBlank c = false ∧ c ∉ ['/', '"', '\'', '`'] ∧ Text.isDigit c = false ∧
      c ∉ Lexeme.symbols := by
  have hascii : ∀ n < 128, p.startsIdentifier (Char.ofNat n) →
      Text.isBlank (Char.ofNat n) = false ∧ Char.ofNat n ∉ ['/', '"', '\'', '`'] ∧
        Text.isDigit (Char.ofNat n) = false ∧ Char.ofNat n ∉ Lexeme.symbols := by
    cases p <;> decide +kernel
  have hlt := (Profile.ascii_of_continuesIdentifier (Profile.continuesIdentifier_of_starts h)).1
  have := hascii c.toNat hlt
  rw [Char.ofNat_toNat] at this
  exact this h

/-- A digit starts nothing but a number. -/
theorem class_of_isDigit {c : Char} (h : Text.isDigit c) :
    Text.isBlank c = false ∧ c ∉ ['/', '"', '\'', '`'] := by
  have htable : ∀ z ∈ Text.zeros, ∀ k < 10, Text.isBlank (Char.ofNat (z + k)) = false ∧
      Char.ofNat (z + k) ∉ ['/', '"', '\'', '`'] := by
    decide +kernel
  rw [Text.isDigit, Text.digitValue?, Option.isSome_map, List.find?_isSome] at h
  obtain ⟨z, hz, hc⟩ := h
  simp only [Bool.and_eq_true, decide_eq_true_eq] at hc
  have := htable z hz (c.toNat - z) (by omega)
  rwa [Nat.add_sub_cancel' hc.1, Char.ofNat_toNat] at this

/-- A symbol starts nothing else, and continues no identifier and no digits. -/
theorem class_of_symbol {c : Char} (h : c ∈ Lexeme.symbols) :
    Text.isBlank c = false ∧ c ∉ ['/', '"', '\'', '`'] ∧ Text.isDigit c = false ∧
      ∀ p : Profile, p.continuesIdentifier c = false := by
  simp only [Lexeme.symbols, List.mem_cons, List.not_mem_nil, or_false] at h
  rcases h with rfl | rfl | rfl | rfl | rfl | rfl <;>
    exact ⟨by decide, by decide, by decide, fun p => by cases p <;> decide⟩

/-- A run of characters of a class ends where the next one is not of the class. -/
theorem takeWhile_append_stop {f : Char → Bool} {s rest : List Char} (hs : s.all f)
    (hrest : ∀ c ∈ rest.head?, f c = false) :
    (s ++ rest).takeWhile f = s ∧ (s ++ rest).dropWhile f = rest := by
  rw [List.all_eq_true] at hs
  rw [List.takeWhile_append_of_pos hs, List.dropWhile_append_of_pos hs]
  cases rest with
  | nil => simp
  | cons c rest => simp [hrest c rfl]

theorem read_identifier {p : Profile} {name : List Char} (h : p.isIdentifier name)
    {rest : List Char} (hrest : Stops p .identifier rest) :
    ∃ c s, name ++ rest = c :: s ∧
      Lexeme.read p c s = ⟨.token .identifier, name, rest⟩ := by
  cases name with
  | nil => cases h
  | cons c s =>
    simp only [Profile.isIdentifier, Bool.and_eq_true] at h
    obtain ⟨htake, hdrop⟩ := takeWhile_append_stop h.2 fun d hd => (hrest d hd).1 rfl
    obtain ⟨hblank, hother, hdigit, hsymbol⟩ := class_of_startsIdentifier h.1
    refine ⟨c, s ++ rest, rfl, ?_⟩
    simp only [List.mem_cons, List.not_mem_nil, or_false, not_or] at hother
    simp [Lexeme.read, hblank, hother, hdigit, hsymbol, h.1, Lexeme.run, htake, hdrop]

theorem read_number (p : Profile) {digits : List Char} (h : Text.isNumeral digits)
    {rest fraction rest' : List Char} (hrest : ∀ c ∈ rest.head?, Text.isDigit c = false)
    (hfraction : Lexeme.fraction rest = (fraction, rest')) :
    ∃ c s, digits ++ rest = c :: s ∧
      Lexeme.read p c s = ⟨.token .number, digits ++ fraction, rest'⟩ := by
  cases digits with
  | nil => cases h
  | cons c s =>
    rw [Text.isNumeral_cons] at h
    obtain ⟨htake, hdrop⟩ := takeWhile_append_stop h.2 hrest
    obtain ⟨hblank, hother⟩ := class_of_isDigit h.1
    refine ⟨c, s ++ rest, rfl, ?_⟩
    simp only [List.mem_cons, List.not_mem_nil, or_false, not_or] at hother
    simp [Lexeme.read, hblank, hother, h.1, Lexeme.number, htake, hdrop, hfraction]

theorem fraction_of_stops {p : Profile} {rest : List Char} (h : Stops p .number rest) :
    Lexeme.fraction rest = ([], rest) := by
  rw [Lexeme.fraction]
  rintro d s rfl
  exact ((h '.' rfl).2 rfl).2 rfl

theorem fraction_digits {p : Profile} {digits rest : List Char} (h : Text.isNumeral digits)
    (hrest : Stops p .number rest) :
    Lexeme.fraction ('.' :: (digits ++ rest)) = ('.' :: digits, rest) := by
  cases digits with
  | nil => cases h
  | cons d s =>
    rw [Text.isNumeral_cons] at h
    obtain ⟨htake, hdrop⟩ := takeWhile_append_stop h.2 fun d hd => ((hrest d hd).2 rfl).1
    simp [Lexeme.fraction, h.1, htake, hdrop]

/-- An escaped character is taken whole into the body of a string. -/
theorem quotedBody_escaped (quote c : Char) (s : List Char) :
    Lexeme.quotedBody quote false (Piece.escaped quote c ++ s) =
      (Piece.escaped quote c ++ (Lexeme.quotedBody quote false s).1,
        (Lexeme.quotedBody quote false s).2) := by
  unfold Piece.escaped
  split
  · rfl
  · next hc =>
    rw [not_or] at hc
    split
    · rfl
    · next hline =>
      rw [List.singleton_append, Lexeme.quotedBody, if_neg hc.2, if_neg (by simp [hc.1, hline])]
      · rfl
      · exact fun _ _ h => absurd h hc.1

theorem quotedBody_quoted {quote : Char} (hq : quote ≠ '\\') (v rest : List Char) :
    Lexeme.quotedBody quote false (v.flatMap (Piece.escaped quote) ++ quote :: rest) =
      (v.flatMap (Piece.escaped quote) ++ [quote], rest) := by
  induction v with
  | nil =>
    rw [List.flatMap_nil, List.nil_append, Lexeme.quotedBody, if_pos rfl]
    · rfl
    · exact fun _ _ h => absurd h hq
  | cons c v ih =>
    rw [List.flatMap_cons, List.append_assoc, quotedBody_escaped, ih, List.append_assoc]

theorem read_quoted (p : Profile) {quote : Char} (h : quote = '"' ∨ quote = '\'')
    (v rest : List Char) :
    Lexeme.read p quote (v.flatMap (Piece.escaped quote) ++ quote :: rest) =
      ⟨.token .string, quote :: (v.flatMap (Piece.escaped quote) ++ [quote]), rest⟩ := by
  have hblank : ¬ Text.isBlank quote := by rcases h with rfl | rfl <;> decide
  have hslash : quote ≠ '/' := by rcases h with rfl | rfl <;> decide
  have hbackslash : quote ≠ '\\' := by rcases h with rfl | rfl <;> decide
  rw [Lexeme.read, if_neg hblank, if_neg hslash, if_pos h, quotedBody_quoted hbackslash,
    Lexeme.enclosed]
  rfl

theorem read_symbol (p : Profile) {c : Char} (h : c ∈ Lexeme.symbols) (rest : List Char) :
    Lexeme.read p c rest = ⟨.token .symbol, [c], rest⟩ := by
  obtain ⟨hblank, hother, hdigit, -⟩ := class_of_symbol h
  simp only [List.mem_cons, List.not_mem_nil, or_false, not_or] at hother
  simp [Lexeme.read, hblank, hother, hdigit, h]

theorem read_minus (p : Profile) (rest : List Char) :
    Lexeme.read p '-' rest = ⟨.token .unknown, ['-'], rest⟩ := by
  have hclass : Text.isBlank '-' = false ∧ Text.isDigit '-' = false ∧ '-' ∉ Lexeme.symbols := by
    decide
  have hstart : p.startsIdentifier '-' = false := by cases p <;> decide
  simp [Lexeme.read, hclass, hstart]

/-- A piece is read as one lexeme, if what follows does not continue it. -/
theorem read_piece {p : Profile} {piece : Piece} (h : piece.Valid p) {rest : List Char}
    (hrest : Stops p piece.kind rest) :
    ∃ c s, piece.text ++ rest = c :: s ∧
      Lexeme.read p c s = ⟨.token piece.kind, piece.text, rest⟩ := by
  cases h with
  | identifier h => exact read_identifier h hrest
  | @integer digits h _ =>
    obtain ⟨c, s, heq, hread⟩ := read_number p h (fun c hc => ((hrest c hc).2 rfl).1)
      (fraction_of_stops hrest)
    exact ⟨c, s, heq, by rw [hread, List.append_nil]; rfl⟩
  | @decimal whole fraction hw hf =>
    have hpoint : ∀ c ∈ ('.' :: (fraction ++ rest)).head?, Text.isDigit c = false := by
      rintro c ⟨⟩
      decide
    obtain ⟨c, s, heq, hread⟩ := read_number p hw hpoint (fraction_digits hf hrest)
    exact ⟨c, s, by rw [← heq]; simp [Piece.number], hread⟩
  | quoted h v =>
    exact ⟨_, _, by simp [Piece.quoted], read_quoted p h v.toList rest⟩
  | symbol h => exact ⟨_, rest, rfl, read_symbol p h rest⟩
  | minus => exact ⟨_, rest, rfl, read_minus p rest⟩

/-! ## Layout -/

/-- The piece `b` may directly follow the piece `a`. -/
def Separable (a b : Piece) : Prop :=
  (a.kind = .identifier → b.kind = .symbol) ∧
    (a.kind = .number → b.kind = .symbol ∧ b.text ≠ ['.'])

/-- A blank or a slash continues no piece. -/
theorem stops_of_blank_or_slash (p : Profile) (kind : TokenKind) {c : Char}
    (h : Text.isBlank c ∨ c = '/') (rest : List Char) : Stops p kind (c :: rest) := by
  rintro d ⟨⟩
  have hdigit : Text.isDigit c = false := by
    rcases h with h | rfl
    · rw [← Bool.not_eq_true]
      intro hd
      simp [(class_of_isDigit hd).1] at h
    · decide
  have hpoint : c ≠ '.' := by
    rintro rfl
    revert h
    decide
  have hcontinues : p.continuesIdentifier c = false := by
    have hascii : ∀ n < 128, p.continuesIdentifier (Char.ofNat n) →
        Text.isBlank (Char.ofNat n) = false ∧ Char.ofNat n ≠ '/' := by
      cases p <;> decide +kernel
    rw [← Bool.not_eq_true]
    intro hc
    have hclass := hascii c.toNat (Profile.ascii_of_continuesIdentifier hc).1
    rw [Char.ofNat_toNat] at hclass
    rcases h with h | h
    · simp [(hclass hc).1] at h
    · exact (hclass hc).2 h
  exact ⟨fun _ => hcontinues, fun _ => ⟨hdigit, hpoint⟩⟩

theorem stops_of_symbol (p : Profile) (kind : TokenKind) {c : Char} (h : c ∈ Lexeme.symbols)
    (hpoint : kind = .number → c ≠ '.') (rest : List Char) : Stops p kind (c :: rest) := by
  obtain ⟨-, -, hdigit, hcontinues⟩ := class_of_symbol h
  rintro d ⟨⟩
  exact ⟨fun _ => hcontinues p, fun hk => ⟨hdigit, hpoint hk⟩⟩

theorem head_of_trivia {c : Char} {s : List Char} (h : Trivia (c :: s)) :
    Text.isBlank c ∨ c = '/' := by
  cases h with
  | blank hc _ => exact .inl hc
  | line | block => exact .inr rfl

/-- What is laid out after a piece does not continue it. -/
theorem stops_of_laid {p : Profile} {piece : Piece} {ps : List Piece} {rest : List Char}
    (h : Laid ps rest) (hvalid : ∀ q ∈ ps, q.Valid p)
    (hsep : ∀ q ∈ ps.head?, Separable piece q) : Stops p piece.kind rest := by
  cases h with
  | nil ht =>
    cases rest with
    | nil => simp [Stops]
    | cons c s => exact stops_of_blank_or_slash p _ (head_of_trivia ht) s
  | @last s body ht hb =>
    cases s with
    | nil => exact stops_of_blank_or_slash p _ (.inr rfl) _
    | cons c s => exact stops_of_blank_or_slash p _ (head_of_trivia ht) _
  | @cons q ps s rest ht hrest =>
    cases s with
    | cons c s => exact stops_of_blank_or_slash p _ (head_of_trivia ht) _
    | nil =>
      obtain ⟨hidentifier, hnumber⟩ := hsep q rfl
      cases hvalid q List.mem_cons_self with
      | symbol hc =>
        refine stops_of_symbol p _ hc (fun hk heq => ?_) _
        exact (hnumber hk).2 (by rw [heq]; rfl)
      | _ =>
        intro c _
        exact ⟨fun hk => (nomatch hidentifier hk), fun hk => (nomatch (hnumber hk).1)⟩

/-- The tokens of a printed text are its pieces. -/
theorem tokensFrom_laid {p : Profile} {ps : List Piece} {s : List Char} (h : Laid ps s)
    (hvalid : ∀ q ∈ ps, q.Valid p) (hchain : ps.IsChain Separable) (position : Nat) :
    ∃ ts, tokensFrom p position s = ts ++ [.endOfText (position + s.length)] ∧
      ts.map Token.piece = ps := by
  induction h generalizing position with
  | @nil s ht =>
    have hskip := tokensFrom_trivia p ht position []
    rw [List.append_nil, tokensFrom_nil] at hskip
    exact ⟨[], hskip, rfl⟩
  | @last s body ht hb =>
    refine ⟨[], ?_, rfl⟩
    have hcomment := tokensFrom_lineComment p (position + s.length) hb (s := []) (by simp)
    rw [List.append_nil, tokensFrom_nil] at hcomment
    rw [tokensFrom_trivia p ht, hcomment]
    simp [Nat.add_assoc, Nat.add_comm, Nat.add_left_comm]
  | @cons piece ps s rest ht hrest ih =>
    rw [List.isChain_cons] at hchain
    obtain ⟨hpiece, hps⟩ := List.forall_mem_cons.mp hvalid
    obtain ⟨ts, htokens, hts⟩ :=
      ih hps hchain.2 (position + s.length + piece.text.length)
    obtain ⟨c, s', heq, hread⟩ := read_piece hpiece (stops_of_laid hrest hps hchain.1)
    refine ⟨⟨piece.kind, String.ofList piece.text, position + s.length⟩ :: ts, ?_, ?_⟩
    · rw [List.append_assoc, tokensFrom_trivia p ht, heq, tokensFrom_of_read_token hread, htokens,
        ← heq]
      simp [Nat.add_assoc]
    · simp [Token.piece, hts]

end UiMarkup
