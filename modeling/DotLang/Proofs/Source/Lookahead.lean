import DotLang.Proofs.Source.Cutting
import DotLang.Proofs.Source.Rounds

/-!
# Looking ahead

A reader that has looked at a token is further on in the text than what has been read. Nobody can
tell: whatever it is asked, and in whatever order, its answer is the token behind as many tokens as
have been read before. At the end of the text, where there is no other token, this is the end of
the text, again and again.

* `Lexer.Holds`: the tokens that a reader will give, whether or not it has looked at one;
* `Lexer.Holds.getElem?_answers`: each answer, by the number of tokens that have been read;
* `Lexer.lookahead_transparent`: reading with looks ahead and without.
-/

namespace DotLang

/-! ### The tokens that are left -/

/-- The tokens behind the next one. -/
def Tokens.tail (ts : Tokens) : Tokens := ⟨ts.pending.tail, ts.stop⟩

/-- What a reader of tokens will give. -/
def Lexer.Holds (l : Lexer) (ts : Tokens) : Prop :=
  match l.ahead with
  | none => l.cursor.tokens = ts
  | some t => t = ts.head ∧ l.cursor.tokens = ts.tail

theorem Cursor.tokens_next (c : Cursor) :
    c.next.1 = c.tokens.head ∧ c.next.2.tokens = c.tokens.tail := by
  by_cases h : c.next.1.kind = .endOfInput
  · have tokens : c.tokens = ⟨[], c.next.1.pos⟩ := by rw [Cursor.tokens, dif_pos h]
    refine ⟨?_, ?_⟩
    · rw [tokens]
      exact congrArg Prod.fst (Cursor.next_eq_of_endOfInput h)
    · rw [Cursor.tokens_congr (Cursor.next_of_endOfInput h), tokens]
      rfl
  · have split : c.next = (c.next.1, c.next.2) := rfl
    rw [Cursor.tokens_cons split h]
    exact ⟨rfl, rfl⟩

theorem Lexer.Holds.next {l : Lexer} {ts : Tokens} (h : l.Holds ts) :
    l.next.1 = ts.head ∧ l.next.2.Holds ts.tail := by
  rcases l with ⟨c, _ | t⟩
  · obtain rfl : c.tokens = ts := h
    exact c.tokens_next
  · exact h

theorem Lexer.Holds.peek {l : Lexer} {ts : Tokens} (h : l.Holds ts) : l.peek.2.Holds ts := by
  rcases l with ⟨c, _ | t⟩
  · obtain rfl : c.tokens = ts := h
    exact c.tokens_next
  · exact h

/-- The token behind the first `n`. -/
def Tokens.nth (ts : Tokens) (n : Nat) : Token := ts.pending[n]?.getD (.endAt ts.stop)

namespace Tokens

variable {ts : Tokens} {n m : Nat}

theorem nth_zero (ts : Tokens) : ts.nth 0 = ts.head := by
  rw [nth, head, List.head?_eq_getElem?]

theorem nth_tail (ts : Tokens) (n : Nat) : ts.tail.nth n = ts.nth (n + 1) := by
  rw [nth, nth, tail, List.getElem?_tail]

/-- Behind the end of the text there is nothing else. -/
theorem nth_of_endOfInput (hts : ∀ t ∈ ts.pending, t.kind ≠ .endOfInput)
    (h : (ts.nth n).kind = .endOfInput) (hnm : n ≤ m) : ts.nth m = ts.nth n := by
  have past : ts.pending.length ≤ n := by
    refine Nat.le_of_not_lt fun hn => ?_
    rw [nth, List.getElem?_eq_getElem hn] at h
    exact hts _ (List.getElem_mem hn) h
  rw [nth, nth, List.getElem?_eq_none past, List.getElem?_eq_none (Nat.le_trans past hnm)]

end Tokens

namespace Lexer

/-! ### Calls -/

/-- What a reader of tokens is asked. -/
inductive Call where
  /-- The next token, without reading it. -/
  | peek
  /-- The next token. -/
  | next
  deriving DecidableEq

/-- The answer of a reader, and the reader then. -/
def call (l : Lexer) : Call → Token × Lexer
  | .peek => l.peek
  | .next => l.next

/-- The answers of a reader that is asked one thing after the other. -/
def answers (l : Lexer) : List Call → List Token
  | [] => []
  | c :: calls => (l.call c).1 :: (l.call c).2.answers calls

/-- The answers that are tokens read. -/
def tokensRead (l : Lexer) (calls : List Call) : List Token :=
  ((calls.zip (l.answers calls)).filter (·.1 = .next)).map Prod.snd

variable {l : Lexer} {ts : Tokens}

/-- Reading without looking ahead. -/
theorem tokensRead_replicate (l : Lexer) (n : Nat) :
    l.tokensRead (List.replicate n .next) = l.answers (List.replicate n .next) := by
  induction n generalizing l with
  | zero => rfl
  | succ n ih => exact congrArg (l.next.1 :: ·) (ih l.next.2)

namespace Holds

/-- The answer is the next token in any case, and only reading takes it. -/
theorem call (h : l.Holds ts) (c : Call) : (l.call c).1 = ts.head ∧
    (l.call c).2.Holds (if c = .next then ts.tail else ts) := by
  cases c with
  | peek => exact ⟨h.next.1, h.peek⟩
  | next => exact h.next

/-- An answer is the token behind as many tokens as have been read. -/
theorem getElem?_answers (h : l.Holds ts) {calls : List Call} {i : Nat} (hi : i < calls.length) :
    (l.answers calls)[i]? = some (ts.nth ((calls.take i).count .next)) := by
  induction calls generalizing l ts i with
  | nil => exact absurd hi (Nat.not_lt_zero i)
  | cons c calls ih =>
    obtain ⟨answer, later⟩ := h.call c
    cases i with
    | zero =>
      show some (l.call c).1 = _
      rw [answer, ← ts.nth_zero]
      rfl
    | succ i =>
      show ((l.call c).2.answers calls)[i]? = _
      rw [ih later (Nat.lt_of_succ_lt_succ hi), List.take_succ_cons, List.count_cons]
      cases c with
      | peek => rfl
      | next => exact congrArg some (ts.nth_tail _)

/-- The tokens that are read are the first ones. -/
theorem tokensRead_eq (h : l.Holds ts) (calls : List Call) :
    l.tokensRead calls = (List.range (calls.count .next)).map ts.nth := by
  induction calls generalizing l ts with
  | nil => rfl
  | cons c calls ih =>
    obtain ⟨answer, later⟩ := h.call c
    cases c with
    | peek => exact (ih later).trans (by rw [List.count_cons]; rfl)
    | next =>
      show (l.call .next).1 :: (l.call .next).2.tokensRead calls = _
      rw [answer, ih later, List.count_cons]
      show ts.head :: (List.range _).map ts.tail.nth = (List.range (_ + 1)).map ts.nth
      rw [List.range_succ_eq_map, List.map_cons, List.map_map, ts.nth_zero]
      exact congrArg (ts.head :: ·) (List.map_congr_left fun n _ => ts.nth_tail n)

end Holds

/-! ### Transparency -/

/-- Nobody can tell whether a reader of a text has looked ahead. -/
structure Transparent (text : List Char) (calls : List Call) : Prop where
  /-- The tokens that are read are those that are read as often without looking ahead. -/
  read : (ofText text).tokensRead calls =
    (ofText text).answers (List.replicate (calls.count .next) .next)
  /-- They are the first tokens of the text, and then the end of the text. -/
  first : (ofText text).tokensRead calls =
    (List.range (calls.count .next)).map (Cursor.ofText text).tokens.nth
  /-- A token that is looked at, however often, is the one that is read next. -/
  peeked : ∀ before n after, calls = before ++ .peek :: (List.replicate n .peek ++ .next :: after) →
    ∃ t, ((ofText text).answers calls)[before.length]? = some t ∧
      ((ofText text).answers calls)[before.length + n + 1]? = some t
  /-- The end of the text stays the answer. -/
  ended : ∀ i j t, ((ofText text).answers calls)[i]? = some t → t.kind = .endOfInput → i ≤ j →
    j < calls.length → ((ofText text).answers calls)[j]? = some t

/-- Looking ahead makes no difference, on any text and in any order of calls. -/
theorem lookahead_transparent (text : List Char) (calls : List Call) :
    Transparent text calls := by
  have start : (ofText text).Holds (Cursor.ofText text).tokens := rfl
  refine { read := ?_, first := start.tokensRead_eq calls, peeked := ?_, ended := ?_ }
  · rw [← tokensRead_replicate, start.tokensRead_eq, start.tokensRead_eq, List.count_replicate_self]
  · rintro before n after rfl
    refine ⟨_, start.getElem?_answers (by simp), ?_⟩
    rw [start.getElem?_answers (by simp; omega)]
    -- From the one call to the other no token is read.
    have looks : before ++ .peek :: (List.replicate n .peek ++ .next :: after) =
        (before ++ .peek :: List.replicate n .peek) ++ .next :: after := by simp
    have length : before.length + n + 1 =
        (before ++ Call.peek :: List.replicate n .peek).length := by simp [Nat.add_assoc]
    rw [List.take_left, looks, length, List.take_left, List.count_append]
    simp [List.count_replicate]
  · intro i j t hi ht hij hj
    rw [start.getElem?_answers (Nat.lt_of_le_of_lt hij hj), Option.some.injEq] at hi
    subst hi
    rw [start.getElem?_answers hj]
    exact congrArg some (Tokens.nth_of_endOfInput (Cursor.kind_ne_endOfInput _) ht
      (((List.take_prefix_take_left hij).sublist).count_le _))

/-- A token is looked at twice before it is read, and the end of the text before it is reached. -/
theorem lookahead_transparent_twice : ∃ text calls,
    (ofText text).answers calls = [⟨.identifier, "a", ⟨1, 1⟩⟩, ⟨.identifier, "a", ⟨1, 1⟩⟩,
      ⟨.identifier, "a", ⟨1, 1⟩⟩, .endAt ⟨2, 1⟩, .endAt ⟨2, 1⟩, .endAt ⟨2, 1⟩] ∧
    Transparent text calls :=
  ⟨"a // b\n".toList, [.peek, .peek, .next, .peek, .next, .next], by decide +kernel,
    lookahead_transparent _ _⟩

end Lexer

end DotLang
