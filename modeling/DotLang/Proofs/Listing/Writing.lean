import DotLang.Listing.Sink
import DotLang.Proofs.Listing.Printing

/-!
# What a failing writer has taken

A graph is written in many pieces, and the bytes of a piece may be taken in several offers. A
writer that takes a number of bytes and then fails has nevertheless taken the first bytes of the
text, as many as that, wherever this cuts the text: in a piece, or in a character. The error is
the one that it answered, and nothing is offered to it afterwards.

* `Writer.Accepts`: a writer takes so many more bytes, and then fails;
* `Writer.Writes`: what such a writer has taken when bytes have been written to it;
* `Graph.writeWith_writes`: a graph is written like its bytes at once;
* `Graph.writeTo_eq`: a sink takes a graph as if it were written at once.
-/

namespace DotLang

theorem utf8_append (cs ds : List Char) : utf8 (cs ++ ds) = utf8 cs ++ utf8 ds :=
  List.flatMap_append

/-- The bytes of a text are those of its characters. -/
theorem toUTF8_ofList (cs : List Char) : (String.ofList cs).toUTF8 = (utf8 cs).toByteArray := by
  rw [String.toUTF8_eq_toByteArray, String.toByteArray_ofList]
  rfl

/-- The bytes of the text of a graph. -/
def Graph.bytes (g : Graph) : List UInt8 := g.text.toUTF8.data.toList

theorem Graph.bytes_eq (g : Graph) : g.bytes = utf8 g.chars := by
  rw [bytes, text, toUTF8_ofList, List.data_toByteArray]

/-! ### Writers -/

theorem SinkError.answer_ne_took (e : SinkError) {k : Nat} (hk : 0 < k) : e.answer ≠ .took k := by
  cases e with
  | refused message => exact Answer.noConfusion
  | full => exact fun h => Nat.ne_of_lt hk (Answer.took.inj h)

theorem SinkError.answer_inj {e e' : SinkError} (h : e.answer = e'.answer) : e = e' := by
  cases e <;> cases e' <;> cases h <;> rfl

namespace Writer

variable {σ : Type}

/-- A writer takes bytes in some offers, one after the other. -/
inductive Takes (w : Writer σ) : σ → List UInt8 → σ → Prop where
  | nothing {s : σ} : Takes w s [] s
  | offer {s s' s'' : σ} {offered rest : List UInt8} {k : Nat}
      (took : w.offer offered s = (.took k, s')) (pos : 0 < k) (le : k ≤ offered.length)
      (later : Takes w s' rest s'') : Takes w s (offered.take k ++ rest) s''

variable {w : Writer σ} {n k : Nat} {s s' s'' : σ} {bytes rest offered : List UInt8}
  {r : Option SinkError × σ}

theorem Takes.trans (h : w.Takes s bytes s') (h' : w.Takes s' rest s'') :
    w.Takes s (bytes ++ rest) s'' := by
  induction h with
  | nothing => exact h'
  | offer took pos le _ ih =>
    rw [List.append_assoc]
    exact .offer took pos le (ih h')

/-- A writer takes `n` more bytes and then fails, however bytes are offered to it. -/
structure Accepts (w : Writer σ) (n : Nat) (s : σ) : Prop where
  /-- Of what it is offered before, it takes something. -/
  takes : ∀ {taken offered : List UInt8} {s' : σ}, w.Takes s taken s' → taken.length < n →
    offered ≠ [] → ∃ k s'', w.offer offered s' = (.took k, s'') ∧ 0 < k ∧ k ≤ offered.length ∧
      taken.length + k ≤ n
  fails : ∀ {taken offered : List UInt8} {s' : σ}, w.Takes s taken s' → taken.length = n →
    offered ≠ [] → ∃ (e : SinkError) (s'' : σ), w.offer offered s' = (e.answer, s'')

namespace Accepts

theorem of_took (h : w.Accepts n s) (took : w.offer offered s = (.took k, s')) (pos : 0 < k)
    (le : k ≤ offered.length) : k ≤ n ∧ w.Accepts (n - k) s' := by
  have ne : offered ≠ [] := List.ne_nil_of_length_pos (Nat.lt_of_lt_of_le pos le)
  have first : w.Takes s (offered.take k ++ []) s' := .offer took pos le .nothing
  rw [List.append_nil] at first
  have length : (offered.take k).length = k := List.length_take_of_le le
  have hkn : k ≤ n := by
    rcases Nat.eq_zero_or_pos n with rfl | hn
    · obtain ⟨e, s'', failed⟩ := h.fails .nothing rfl ne
      exact absurd (congrArg Prod.fst (failed.symm.trans took)) (e.answer_ne_took pos)
    · obtain ⟨k', s'', took', -, -, hle⟩ := h.takes .nothing hn ne
      cases took.symm.trans took'
      rwa [List.length_nil, Nat.zero_add] at hle
  refine ⟨hkn, fun {taken _ _} later hlt ne' => ?_, fun {taken _ _} later heq ne' => ?_⟩
  · obtain ⟨k', s'', took', pos', le', hle⟩ := h.takes (first.trans later)
      (by rw [List.length_append]; omega) ne'
    rw [List.length_append] at hle
    exact ⟨k', s'', took', pos', le', by omega⟩
  · exact h.fails (first.trans later) (by rw [List.length_append]; omega) ne'

theorem of_takes (h : w.Accepts n s) (takes : w.Takes s bytes s') :
    bytes.length ≤ n ∧ w.Accepts (n - bytes.length) s' := by
  induction takes generalizing n with
  | nothing => exact ⟨Nat.zero_le n, h⟩
  | offer took pos le _ ih =>
    obtain ⟨hk, later⟩ := h.of_took took pos le
    obtain ⟨hrest, last⟩ := ih later
    rw [List.length_append, List.length_take_of_le le]
    rw [Nat.sub_sub] at last
    exact ⟨by omega, last⟩

end Accepts

/-- What a writer that takes `n` more bytes has taken when bytes have been written to it: all if
    they are as few, and otherwise the first `n`. Then it was offered bytes that follow, and its
    answer was the error. -/
inductive Writes (w : Writer σ) (n : Nat) (bytes : List UInt8) (s : σ) :
    Option SinkError × σ → Prop where
  | all {s' : σ} (le : bytes.length ≤ n) (takes : w.Takes s bytes s') :
      Writes w n bytes s (none, s')
  | cut {s' s'' : σ} {offered : List UInt8} {e : SinkError} (lt : n < bytes.length)
      (takes : w.Takes s (bytes.take n) s') (ne : offered ≠ []) (next : offered <+: bytes.drop n)
      (failed : w.offer offered s' = (e.answer, s'')) : Writes w n bytes s (some e, s'')

namespace Writes

theorem fst_eq_none_iff (h : w.Writes n bytes s r) : r.1 = none ↔ bytes.length ≤ n := by
  cases h with
  | all le _ => exact iff_of_true rfl le
  | cut lt _ _ _ _ => exact iff_of_false (Option.some_ne_none _) (Nat.not_le.2 lt)

/-- What is written behind bytes that have all been taken. -/
theorem behind (takes : w.Takes s bytes s') (le : bytes.length ≤ n)
    (h : w.Writes (n - bytes.length) rest s' r) : w.Writes n (bytes ++ rest) s r := by
  cases h with
  | all le' takes' =>
    exact .all (by rw [List.length_append]; omega) (takes.trans takes')
  | cut lt takes' ne next failed =>
    refine .cut (by rw [List.length_append]; omega) ?_ ne ?_ failed
    · rw [List.take_append, List.take_of_length_le le]
      exact takes.trans takes'
    · rwa [List.drop_append, List.drop_of_length_le le]

/-- What would follow the bytes that were cut does not matter. -/
theorem append {e : SinkError} (h : w.Writes n bytes s (some e, s')) (rest : List UInt8) :
    w.Writes n (bytes ++ rest) s (some e, s') := by
  cases h with
  | cut lt takes ne next failed =>
    have le := Nat.le_of_lt lt
    refine .cut (by rw [List.length_append]; omega) ?_ ne ?_ failed
    · rwa [List.take_append_of_le_length le]
    · rw [List.drop_append_of_le_length le]
      exact next.trans (List.prefix_append ..)

end Writes

/-- A failing answer to bytes at hand is the end of what is taken. -/
theorem Accepts.writes_of_failed (h : w.Accepts n s) (ne : bytes ≠ []) {e : SinkError}
    (failed : w.offer bytes s = (e.answer, s')) : w.Writes n bytes s (some e, s') := by
  rcases Nat.eq_zero_or_pos n with rfl | hn
  · exact .cut (List.length_pos_iff.2 ne) .nothing ne (List.prefix_refl _) failed
  · obtain ⟨k, s'', took, pos, -, -⟩ := h.takes .nothing hn ne
    exact absurd (congrArg Prod.fst (failed.symm.trans took)) (e.answer_ne_took pos)

/-- A writer that takes more bytes than it is offered breaks its contract. -/
theorem Accepts.le_length (h : w.Accepts n s) (ne : bytes ≠ [])
    (took : w.offer bytes s = (.took k, s')) : k ≤ bytes.length := by
  rcases Nat.eq_zero_or_pos n with rfl | hn
  · obtain ⟨e, s'', failed⟩ := h.fails .nothing rfl ne
    rcases Nat.eq_zero_or_pos k with rfl | hk
    · exact Nat.zero_le _
    · exact absurd (congrArg Prod.fst (failed.symm.trans took)) (e.answer_ne_took hk)
  · obtain ⟨k', s'', took', -, le, -⟩ := h.takes .nothing hn ne
    cases took.symm.trans took'
    exact le

/-- Bytes of one piece: what is left after an offer is offered again. -/
theorem writeAll_writes (h : w.Accepts n s) (bytes : List UInt8) :
    w.Writes n bytes s (w.writeAll bytes s) := by
  fun_induction w.writeAll bytes s generalizing n with
  | case1 s => exact .all (Nat.zero_le n) .nothing
  | case2 bytes s ne s' full => exact h.writes_of_failed (e := .full) ne full
  | case3 bytes s ne k s' took ih =>
    have le := h.le_length ne took
    obtain ⟨hk, later⟩ := h.of_took took k.succ_pos le
    have first := Takes.offer took k.succ_pos le .nothing
    rw [List.append_nil] at first
    have length : (bytes.take (k + 1)).length = k + 1 := List.length_take_of_le le
    have fits : (bytes.take (k + 1)).length ≤ n := by rw [length]; exact hk
    have all := Writes.behind first fits (by rw [length]; exact ih later)
    rwa [List.take_append_drop] at all
  | case4 bytes s ne message s' failed => exact h.writes_of_failed (e := .refused message) ne failed

end Writer

/-! ### Graphs -/

section

variable {σ : Type} {w : Writer σ} {n : Nat} {s : σ}

open Writer

/-- The next piece is written if the one before has been taken. -/
theorem Adapter.forM_put_cons (piece : List Char) (pieces : List (List Char)) (s : σ) :
    (piece :: pieces).forM (Adapter.put w) { inner := s } =
      match w.writeAll (utf8 piece) s with
      | (none, s) => pieces.forM (Adapter.put w) { inner := s }
      | (some e, s) => (.error (), { inner := s, error := some e }) := by
  have first : Adapter.put w piece { inner := s } = match w.writeAll (utf8 piece) s with
      | (none, s) => (.ok (), { inner := s })
      | (some e, s) => (.error (), { inner := s, error := some e }) := rfl
  change (do Adapter.put w piece; pieces.forM (Adapter.put w) : Print (Adapter σ) Unit) _ = _
  simp only [bind, ExceptT.bind, ExceptT.mk, StateT.bind, first]
  rcases w.writeAll (utf8 piece) s with ⟨_ | e, s'⟩ <;> rfl

/-- What is left of writing, and how printing has ended. -/
def Adapter.outcome (r : Option SinkError × σ) : Except Unit Unit × Adapter σ :=
  (if r.1 = none then .ok () else .error (), { inner := r.2, error := r.1 })

/-- Pieces are written like their bytes at once: after a failure there is no other piece. -/
theorem Adapter.forM_put (h : w.Accepts n s) (pieces : List (List Char)) :
    ∃ r, w.Writes n (utf8 pieces.flatten) s r ∧
      pieces.forM (Adapter.put w) { inner := s } = Adapter.outcome r := by
  induction pieces generalizing n s with
  | nil => exact ⟨(none, s), .all (Nat.zero_le n) .nothing, rfl⟩
  | cons piece pieces ih =>
    have first := writeAll_writes h (utf8 piece)
    rw [List.flatten_cons, utf8_append, Adapter.forM_put_cons]
    rcases hr : w.writeAll (utf8 piece) s with ⟨_ | e, s'⟩
    · rw [hr] at first
      cases first with
      | all le takes =>
        obtain ⟨r, writes, later⟩ := ih (h.of_takes takes).2
        exact ⟨r, .behind takes le writes, later⟩
    · rw [hr] at first
      exact ⟨(some e, s'), first.append _, rfl⟩

theorem Graph.writeWith_of_outcome (g : Graph) {r : Option SinkError × σ}
    (h : g.print (Adapter.put w) { inner := s } = Adapter.outcome r) : g.writeWith w s = r := by
  rw [writeWith, h]
  rcases r with ⟨_ | e, s⟩ <;> rfl

/-- A writer that takes so many bytes and then fails has taken the first bytes of the text of a
    graph, as many as that. The graph is written without an error exactly if these are all. -/
theorem Graph.writeWith_writes (g : Graph) (h : w.Accepts n s) :
    w.Writes n g.bytes s (g.writeWith w s) ∧
      ((g.writeWith w s).1 = none ↔ g.bytes.length ≤ n) := by
  have writes : w.Writes n g.bytes s (g.writeWith w s) := by
    obtain ⟨pieces, program, text⟩ := g.puts_print (Adapter.put w)
    obtain ⟨r, writes, result⟩ := Adapter.forM_put h pieces
    rw [← program] at result
    rw [g.writeWith_of_outcome result, g.bytes_eq, ← text]
    exact writes
  exact ⟨writes, writes.fst_eq_none_iff⟩

end

/-! ### Sinks -/

namespace Sink

variable {s s' : Sink} {n : Nat} {bytes rest : List UInt8}

theorem write_nil (s : Sink) : s.write [] = (s, none) := by
  rcases s with ⟨written, _ | room, failure⟩
  · simp only [write, List.append_nil]
  · simp only [write, List.take_nil, List.append_nil, List.length_nil, Nat.sub_zero,
      Nat.zero_le, if_true]

theorem write_of_capacity (h : s.capacity = some n) (bytes : List UInt8) :
    s.write bytes =
      ({ s with written := s.written ++ bytes.take n, capacity := some (n - bytes.length) },
        if bytes.length ≤ n then none else some s.failure) := by
  rw [write, h]

theorem write_of_full (h : s.capacity = some 0) (ne : bytes ≠ []) :
    s.write bytes = (s, some s.failure) := by
  rcases s with ⟨written, capacity, failure⟩
  cases h
  have length : ¬bytes.length ≤ 0 := Nat.not_le.2 (List.length_pos_iff.2 ne)
  simp only [write, List.take_zero, List.append_nil, Nat.zero_sub, if_neg length]

/-- Bytes that are written without an error fit into the sink. -/
theorem write_fits (h : s.write bytes = (s', none)) (hn : s.capacity = some n) :
    bytes.length ≤ n ∧ s'.capacity = some (n - bytes.length) := by
  rw [write_of_capacity hn, Prod.mk.injEq] at h
  obtain ⟨rfl, error⟩ := h
  refine ⟨Decidable.byContradiction fun lt => ?_, rfl⟩
  rw [if_neg lt] at error
  cases error

theorem write_append (s : Sink) (bytes rest : List UInt8) :
    s.write (bytes ++ rest) =
      match s.write bytes with
      | (s, none) => s.write rest
      | (s, some e) => (s, some e) := by
  rcases s with ⟨written, _ | room, failure⟩
  · simp only [write, List.append_assoc]
  by_cases le : bytes.length ≤ room
  · have both : bytes.length + rest.length ≤ room ↔ rest.length ≤ room - bytes.length := by omega
    simp only [write, List.take_append, List.length_append, if_pos le, both, List.append_assoc,
      Nat.sub_sub]
  · have both : ¬bytes.length + rest.length ≤ room := by omega
    have room' : room - (bytes.length + rest.length) = room - bytes.length := by omega
    have beyond : room - bytes.length = 0 := by omega
    simp only [write, List.take_append, List.length_append, if_neg le, if_neg both, room', beyond,
      List.take_zero, List.append_nil]

/-- A sink that is offered bytes fails if it has no room, and otherwise takes some of them. -/
theorem offer_cases (s : Sink) (ne : bytes ≠ []) :
    (s.capacity = some 0 ∧ writer.offer bytes s = (s.failure.answer, s)) ∨
    ∃ k s', writer.offer bytes s = (.took k, s') ∧ 0 < k ∧ k ≤ bytes.length ∧
      s.write (bytes.take k) = (s', none) := by
  have length := List.length_pos_iff.2 ne
  rcases s with ⟨written, _ | _ | room, failure⟩
  · exact .inr ⟨bytes.length, _, rfl, length, Nat.le_refl _, by simp only [write, List.take_length]⟩
  · exact .inl ⟨rfl, rfl⟩
  · have taken : (bytes.take (room + 1)).length = min bytes.length (room + 1) := by
      rw [List.length_take, Nat.min_comm]
    have whole : bytes.take (min bytes.length (room + 1)) = bytes.take (room + 1) := by
      rw [Nat.min_comm, ← List.take_eq_take_min]
    have left : room + 1 - min bytes.length (room + 1) = room + 1 - bytes.length := by omega
    refine .inr ⟨min bytes.length (room + 1), _, rfl, by omega, Nat.min_le_left .., ?_⟩
    rw [whole, write_of_capacity rfl, taken, left, List.take_take, Nat.min_self,
      if_pos (Nat.min_le_right ..)]

theorem write_of_took {k : Nat} (ne : bytes ≠ []) (took : writer.offer bytes s = (.took k, s'))
    (pos : 0 < k) : s.write (bytes.take k) = (s', none) := by
  obtain ⟨-, failed⟩ | ⟨k', _, took', -, -, written⟩ := s.offer_cases ne
  · exact absurd (congrArg Prod.fst (failed.symm.trans took)) (s.failure.answer_ne_took pos)
  · cases took.symm.trans took'
    exact written

theorem write_of_failed {e : SinkError} (ne : bytes ≠ [])
    (failed : writer.offer bytes s = (e.answer, s')) : s.write bytes = (s', some e) := by
  obtain ⟨full, failed'⟩ | ⟨k, _, took, pos, -, -⟩ := s.offer_cases ne
  · obtain ⟨answer, rfl⟩ := Prod.mk.inj (failed'.symm.trans failed)
    rw [write_of_full full ne, SinkError.answer_inj answer]
  · exact absurd (congrArg Prod.fst (failed.symm.trans took)) (e.answer_ne_took pos)

theorem write_of_takes (h : writer.Takes s bytes s') : s.write bytes = (s', none) := by
  induction h with
  | nothing => exact write_nil _
  | offer took pos le _ ih =>
    have ne := List.ne_nil_of_length_pos (Nat.lt_of_lt_of_le pos le)
    rw [write_append, write_of_took ne took pos]
    exact ih

/-- A sink with a capacity takes as many bytes and then fails. -/
theorem accepts (h : s.capacity = some n) : writer.Accepts n s where
  takes {taken offered s'} takes lt ne := by
    obtain ⟨-, capacity⟩ := write_fits (write_of_takes takes) h
    obtain ⟨full, -⟩ | ⟨k, s'', took, pos, le, written⟩ := s'.offer_cases ne
    · rw [capacity, Option.some_inj] at full
      omega
    · have fits := (write_fits written capacity).1
      rw [List.length_take_of_le le] at fits
      exact ⟨k, s'', took, pos, le, by omega⟩
  fails {taken offered s'} takes eq ne := by
    obtain ⟨-, capacity⟩ := write_fits (write_of_takes takes) h
    rw [eq, Nat.sub_self] at capacity
    obtain ⟨-, failed⟩ | ⟨k, s'', -, pos, le, written⟩ := s'.offer_cases ne
    · exact ⟨s'.failure, s', failed⟩
    · have fits := (write_fits written capacity).1
      rw [List.length_take_of_le le] at fits
      omega

/-- Offering again what is left comes to writing at once. -/
theorem writeAll_writer (bytes : List UInt8) (s : Sink) :
    writer.writeAll bytes s = (s.write bytes).swap := by
  fun_induction writer.writeAll bytes s with
  | case1 s => rw [write_nil]; rfl
  | case2 bytes s ne s' took => rw [write_of_failed (e := .full) ne took]; rfl
  | case3 bytes s ne k s' took ih =>
    have all := write_append s (bytes.take (k + 1)) (bytes.drop (k + 1))
    rw [List.take_append_drop, write_of_took ne took k.succ_pos] at all
    rw [ih, all]
  | case4 bytes s ne message s' failed =>
    rw [write_of_failed (e := .refused message) ne failed]; rfl

/-- Writing pieces comes to writing at once. -/
theorem forM_put (s : Sink) (pieces : List (List Char)) :
    pieces.forM (Adapter.put writer) { inner := s } =
      Adapter.outcome (s.write (utf8 pieces.flatten)).swap := by
  induction pieces generalizing s with
  | nil =>
    rw [List.flatten_nil, utf8, List.flatMap_nil, write_nil]
    rfl
  | cons piece pieces ih =>
    rw [Adapter.forM_put_cons, writeAll_writer, List.flatten_cons, utf8_append, write_append]
    rcases s.write (utf8 piece) with ⟨s', _ | e⟩
    · exact ih s'
    · rfl

end Sink

/-- A writer that takes ten bytes and then fails has taken one of the two bytes of a character. -/
theorem Graph.writeWith_writes_within_character :
    let g : Graph := { directed := true, name := some "é" }
    let s : Sink := { capacity := some 10, failure := .refused "no space left" }
    Sink.writer.Accepts 10 s ∧ g.bytes.take 10 = utf8 "digraph \"".toList ++ [0xC3] ∧
      Sink.writer.Writes 10 g.bytes s (g.writeWith Sink.writer s) ∧
      ((g.writeWith Sink.writer s).1 = none ↔ g.bytes.length ≤ 10) := by
  intro g s
  have accepts : Sink.writer.Accepts 10 s := Sink.accepts rfl
  refine ⟨accepts, ?_, g.writeWith_writes accepts⟩
  rw [g.bytes_eq]
  decide

/-- A sink takes a graph as if its bytes were written at once. -/
theorem Graph.writeTo_eq (g : Graph) (s : Sink) : g.writeTo s = s.write g.bytes := by
  obtain ⟨pieces, program, text⟩ := g.puts_print (Adapter.put Sink.writer)
  have result := Sink.forM_put s pieces
  rw [← program, text, ← g.bytes_eq] at result
  rw [writeTo, g.writeWith_of_outcome result, Prod.swap_swap]

end DotLang
