import UiMarkup.Proofs.TokenLanguages

/-!
# Tokens partition the source

The tokens of a source stand one after the other, and what lies between them is blanks and comments.
Nothing of the source is lost, and nothing is taken twice.

* `Gap gap rest`: the text `gap`, which stands before `rest`, consists of blanks and comments.
* `gapAt_of_mem_gaps`: what lies between two tokens is a gap.
* `tokens_partition_source`: the tokens and the gaps make up the source.
-/

namespace UiMarkup

/-! ## Blanks and comments -/

/-- The text, which stands before `rest`, is a row of blanks and comments. A line comment goes up to
a line end or the end of the source, without taking the line end in, and a block comment up to its
first `*/`. Only the last comment of the source may lack its end. -/
inductive Gap : List Char → List Char → Prop where
  | nil (rest : List Char) : Gap [] rest
  | blank {c : Char} {s rest : List Char} (hc : Text.isBlank c) (h : Gap s rest) :
      Gap (c :: s) rest
  | line {body s rest : List Char} (hb : '\n' ∉ body) (hs : ∀ c ∈ (s ++ rest).head?, c = '\n')
      (h : Gap s rest) : Gap ('/' :: '/' :: body ++ s) rest
  | block {body s rest : List Char} (hb : ¬ ['*', '/'] <:+: body) (h : Gap s rest) :
      Gap ('/' :: '*' :: body ++ '*' :: '/' :: s) rest
  | unterminated {body : List Char} (hb : ¬ ['*', '/'] <:+: body) : Gap ('/' :: '*' :: body) []

namespace Gap

theorem blanks {t s rest : List Char} (ht : ∀ c ∈ t, Text.isBlank c) (h : Gap s rest) :
    Gap (t ++ s) rest := by
  induction t with
  | nil => exact h
  | cons c t ih =>
    obtain ⟨hc, ht⟩ := List.forall_mem_cons.mp ht
    exact .blank hc (ih ht)

/-- What starts with a character that belongs to no blank and no comment is no gap. -/
theorem eq_nil_of_unclaimed {p : Profile} {c : Char} {s gap rest : List Char}
    (hc : Lexeme.Unclaimed p c s) (heq : gap ++ rest = c :: s) (h : Gap gap rest) : gap = [] := by
  cases h with
  | nil => rfl
  | blank hblank =>
    obtain ⟨rfl, -⟩ := List.cons.inj heq
    simp [hc.blank] at hblank
  | line =>
    obtain ⟨rfl, rfl⟩ := List.cons.inj heq
    exact absurd rfl (hc.comment rfl '/' rfl).1
  | block | unterminated =>
    obtain ⟨rfl, rfl⟩ := List.cons.inj heq
    exact absurd rfl (hc.comment rfl '*' rfl).2

end Gap

namespace Lexeme

/-- A block comment goes up to its first end, or up to the end of the text if it has none. -/
theorem blockCommentBody_cases (s : List Char) :
    (∃ body rest, ¬ ['*', '/'] <:+: body ∧
        blockCommentBody s = (body ++ ['*', '/'], rest)) ∨
      ¬ ['*', '/'] <:+: s ∧ blockCommentBody s = (s, []) := by
  fun_induction blockCommentBody s with
  | case1 => exact .inr ⟨by simp, rfl⟩
  | case2 s => exact .inl ⟨[], s, by simp, rfl⟩
  | case3 c s hnot body rest heq ih =>
    have happend := blockCommentBody_append s
    -- no end of a comment starts at `c`
    have hcons {t : List Char} (ht : t <+: s) (h : ¬ ['*', '/'] <:+: t) :
        ¬ ['*', '/'] <:+: c :: t := by
      rw [List.infix_cons_iff, not_or]
      refine ⟨fun hprefix => ?_, h⟩
      obtain ⟨rfl, hslash⟩ := List.cons_prefix_cons.mp hprefix
      obtain ⟨u, hu⟩ := hslash.trans ht
      exact hnot u rfl hu.symm
    rw [heq] at ih happend
    rcases ih with ⟨body', rest', hbody, hpair⟩ | ⟨hs, hpair⟩
    · obtain ⟨rfl, rfl⟩ := Prod.mk.inj hpair
      have hprefix : body' <+: s := ⟨['*', '/'] ++ rest, by rw [← List.append_assoc, happend]⟩
      exact .inl ⟨c :: body', rest, hcons hprefix hbody, rfl⟩
    · obtain ⟨rfl, rfl⟩ := Prod.mk.inj hpair
      exact .inr ⟨hcons List.prefix_rfl hs, rfl⟩

/-- A blank or a comment and a gap after it are a gap. -/
theorem gap_of_read {p : Profile} {c : Char} {s gap rest : List Char}
    (hkind : ∀ k, (read p c s).kind ≠ .token k) (hrest : gap ++ rest = (read p c s).rest)
    (h : Gap gap rest) : Gap ((read p c s).text ++ gap) rest := by
  have hreads := reads p c s
  generalize read p c s = lexeme at hkind hrest hreads
  cases hreads with
  | @blank c s hc =>
    have hblanks : ∀ x ∈ c :: s.takeWhile Text.isBlank, Text.isBlank x :=
      List.forall_mem_cons.mpr ⟨hc, List.all_eq_true.mp List.all_takeWhile⟩
    exact h.blanks hblanks
  | lineComment s =>
    refine .line ?_ ?_ h
    · intro hline
      have := List.all_eq_true.mp (List.all_takeWhile (p := (· != '\n'))) _ hline
      simp at this
    · intro c hc
      have hstop := List.head?_dropWhile_not (· != '\n') s
      rw [show (s.dropWhile (· != '\n')).head? = some c by rw [← hc, hrest]] at hstop
      simpa using hstop
  | blockComment s =>
    rcases blockCommentBody_cases s with ⟨body, rest', hbody, heq⟩ | ⟨hs, heq⟩
    · simp only [enclosed, heq] at hrest ⊢
      simpa using h.block hbody
    · simp only [enclosed, heq, List.append_eq_nil_iff] at hrest ⊢
      obtain ⟨rfl, rfl⟩ := hrest
      simpa using Gap.unterminated hs
  | _ => exact absurd rfl (hkind _)

end Lexeme

/-! ## The text between tokens -/

/-- The offsets between which no token stands: from the end of each token, at first from `start`,
to the start of the next one. -/
def gaps (start : Nat) : List Token → List (Nat × Nat)
  | [] => []
  | t :: ts => (start, t.position) :: gaps (t.position + t.text.length) ts

/-- Past a beginning of the text, dropping goes on in the rest. -/
theorem drop_sub_append {start a : Nat} {t s : List Char} (h : start + t.length ≤ a) :
    (t ++ s).drop (a - start) = s.drop (a - (start + t.length)) := by
  rw [List.drop_append, List.drop_eq_nil_of_le (by omega), List.nil_append, Nat.sub_sub]

/-- Between the offsets `g`, the text `s`, which starts at the offset `start`, is a gap. -/
def GapAt (start : Nat) (s : List Char) (g : Nat × Nat) : Prop :=
  start ≤ g.1 ∧ g.1 ≤ g.2 ∧ Gap ((s.drop (g.1 - start)).take (g.2 - g.1)) (s.drop (g.2 - start))

/-- A gap after a lexeme is one in the whole text, too. -/
theorem GapAt.after_lexeme {p : Profile} {start : Nat} {c : Char} {s : List Char} {g : Nat × Nat}
    (h : GapAt (start + (Lexeme.read p c s).text.length) (Lexeme.read p c s).rest g) :
    GapAt start (c :: s) g := by
  obtain ⟨hle, hab, hgap⟩ := h
  refine ⟨by omega, hab, ?_⟩
  rwa [← Lexeme.text_append_rest p c s, drop_sub_append hle, drop_sub_append (by omega)]

/-- A gap right after a blank or a comment starts with it. -/
theorem GapAt.with_lexeme {p : Profile} {start : Nat} {c : Char} {s : List Char} {b : Nat}
    (hkind : ∀ k, (Lexeme.read p c s).kind ≠ .token k)
    (h : GapAt (start + (Lexeme.read p c s).text.length) (Lexeme.read p c s).rest
      (start + (Lexeme.read p c s).text.length, b)) :
    GapAt start (c :: s) (start, b) := by
  obtain ⟨-, hle, hgap⟩ := h
  simp only [Nat.sub_self, List.drop_zero] at hle hgap
  have hwhole := Lexeme.gap_of_read hkind (List.take_append_drop _ _) hgap
  refine ⟨Nat.le_refl _, by omega, ?_⟩
  simp only [Nat.sub_self, List.drop_zero]
  rw [← Lexeme.text_append_rest p c s, drop_sub_append hle, List.take_append,
    List.take_of_length_le (by omega), Nat.sub_sub]
  exact hwhole

/-- What lies between two tokens is a gap. -/
theorem gapAt_of_mem_gaps (p : Profile) (start : Nat) (s : List Char) :
    ∀ g ∈ gaps start (tokensFrom p start s), GapAt start s g := by
  fun_induction tokensFrom p start s with
  | case1 start =>
    intro g hg
    obtain rfl := List.mem_singleton.mp hg
    simpa [GapAt, Token.endOfText] using Gap.nil []
  | case2 start c s lexeme tail kind hkind ih =>
    intro g hg
    rcases List.mem_cons.mp hg with rfl | hg
    · simpa [GapAt] using Gap.nil (c :: s)
    · rw [String.length_ofList] at hg
      exact (ih g hg).after_lexeme
  | case3 start c s lexeme tail hkind ih =>
    intro g hg
    obtain ⟨t, ts, htail⟩ : ∃ t ts, tail = t :: ts := by
      obtain ⟨ts, htail, -⟩ := exists_tokensFrom_eq p (start + lexeme.text.length) lexeme.rest
      exact List.exists_cons_of_ne_nil fun h => by simp [show tail = _ from htail] at h
    rw [show tokensFrom p _ _ = t :: ts from htail] at ih
    rw [htail] at hg
    rcases List.mem_cons.mp hg with rfl | hg
    · exact (ih _ List.mem_cons_self).with_lexeme hkind
    · exact (ih g (List.mem_cons_of_mem _ hg)).after_lexeme

/-- Tokens do not overlap. -/
theorem tokensFrom_apart (p : Profile) (start : Nat) (s : List Char) :
    (tokensFrom p start s).Pairwise fun t u => t.position + t.text.length ≤ u.position := by
  fun_induction tokensFrom p start s with
  | case1 start => exact List.pairwise_singleton _ _
  | case2 start c s lexeme tail kind hkind ih =>
    refine List.pairwise_cons.mpr ⟨fun u hu => ?_, ih⟩
    rw [String.length_ofList]
    exact le_position_of_mem hu
  | case3 start c s lexeme tail hkind ih => exact ih

/-! ## One token -/

namespace Token

/-- The source at a token: what is read there, and the rest. -/
theorem ReadAt.drop_eq {p : Profile} {s : List Char} {t : Token} (h : ReadAt p 0 s t) :
    ∃ c rest, s.drop t.position = c :: rest ∧ (Lexeme.read p c rest).kind = .token t.kind ∧
      t.text.toList = (Lexeme.read p c rest).text ∧
      s.drop (t.position + t.text.length) = (Lexeme.read p c rest).rest := by
  obtain ⟨-, c, rest, hdrop, hkind, htext⟩ := h
  rw [Nat.sub_zero] at hdrop
  refine ⟨c, rest, hdrop, hkind, htext, ?_⟩
  rw [← List.drop_drop, hdrop, ← Lexeme.text_append_rest p c rest, ← htext]
  exact List.drop_left' String.length_toList

/-- A token is a nonempty part of the source at its offset, and belongs to the language of its
kind. -/
theorem formed_of_mem {p : Profile} {s : List Char} {t : Token} (h : t ∈ tokensFrom p 0 s)
    (hk : t.kind ≠ .eof) :
    t.text ≠ "" ∧ (s.drop t.position).take t.text.length = t.text.toList ∧
      t.text.toList ∈ t.kind.language p := by
  obtain ⟨c, rest, hdrop, hkind, htext, -⟩ := (readAt_of_mem h hk).drop_eq
  refine ⟨?_, ?_, htext ▸ Lexeme.text_mem_language hkind⟩
  · rintro hempty
    rw [hempty] at htext
    exact Lexeme.text_ne_nil p c rest htext.symm
  · rw [hdrop, ← Lexeme.text_append_rest p c rest, ← htext]
    exact List.take_left' String.length_toList

end Token

/-- **The tokens partition the source.** The last token, and no other, is the end token, at the end
of the source. Every other token is a nonempty part of the source at its offset and belongs to the
language of its kind. The tokens stand in order and do not overlap, and what lies before, between
and after them is blanks and comments. No identifier character follows an identifier, and an unknown
token stands only where no blank, no comment and no other token starts. -/
theorem tokens_partition_source (p : Profile) (source : String) :
    let text := source.toList
    ∃ tokens, tokenize p source = tokens ++ [.endOfText text.length] ∧
      (∀ t ∈ tokens, t.kind ≠ .eof ∧ t.text ≠ "" ∧
        (text.drop t.position).take t.text.length = t.text.toList ∧
        t.text.toList ∈ t.kind.language p) ∧
      ((tokenize p source).Pairwise fun t u =>
        t.position < u.position ∧ t.position + t.text.length ≤ u.position) ∧
      (∀ a b, (a, b) ∈ gaps 0 (tokenize p source) →
        a ≤ b ∧ Gap ((text.drop a).take (b - a)) (text.drop b)) ∧
      (∀ t ∈ tokens, t.kind = .identifier →
        ∀ c ∈ (text.drop (t.position + t.text.length)).head?, p.continuesIdentifier c = false) ∧
      ∀ t ∈ tokens, t.kind = .unknown →
        (∀ (kind : TokenKind) (word : List Char), word <+: text.drop t.position →
          word ∈ kind.language p → kind = .unknown ∨ kind = .eof) ∧
        ∀ gap rest, gap ++ rest = text.drop t.position → Gap gap rest → gap = [] := by
  intro text
  obtain ⟨tokens, htokens, hkinds⟩ := exists_tokensFrom_eq p 0 text
  rw [Nat.zero_add] at htokens
  have hmem : ∀ t ∈ tokens, t ∈ tokensFrom p 0 text := by
    intro t ht
    rw [htokens]
    exact List.mem_append_left _ ht
  refine ⟨tokens, htokens, ?_, ?_, ?_, ?_, ?_⟩
  · exact fun t ht => ⟨hkinds t ht, Token.formed_of_mem (hmem t ht) (hkinds t ht)⟩
  · exact (tokensFrom_increasing p 0 text).and (tokensFrom_apart p 0 text)
  · intro a b hg
    exact (gapAt_of_mem_gaps p 0 text (a, b) hg).2
  · intro t ht hk c hc
    obtain ⟨c', rest, -, hkind, -, hrest⟩ := (Token.readAt_of_mem (hmem t ht) (hkinds t ht)).drop_eq
    rw [hk] at hkind
    rw [hrest] at hc
    exact Lexeme.stops_of_identifier hkind c hc
  · intro t ht hk
    obtain ⟨c, rest, hdrop, hkind, -⟩ := (Token.readAt_of_mem (hmem t ht) (hkinds t ht)).drop_eq
    rw [hk] at hkind
    have hc := Lexeme.unclaimed_of_read hkind
    rw [hdrop]
    exact ⟨fun kind word => Lexeme.eq_unknown_of_mem_language hc,
      fun gap rest => Gap.eq_nil_of_unclaimed hc⟩

end UiMarkup
