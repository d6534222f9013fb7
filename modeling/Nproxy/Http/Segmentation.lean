import Nproxy.Http.Head

/-!
Parsing and the cut of the stream into reads.

`handle_read` parses the whole read buffer again after every read, so the parser
sees longer and longer prefixes of one stream. `Stable b c` says that what it
decided on `b` it decides on `b ++ c`.

* `parse_error_append`: a rejected prefix stays rejected.
* `parse_done_append`: an accepted prefix whose head ends with the blank line
  stays accepted, as the same request.
* `StopsBetweenLines` is the one kind of prefix on which the parser decides too
  early: it ends right behind the request line or a header line. The loop
  condition `cur < end` then fails and the parser goes on as after a blank line.
* `stable_iff`: the parser is stable on `b` exactly when `b` is not of that kind.
-/

namespace Nproxy

open Lines (IsLine joinLines HeadSplit findPair)

/-- The same request, as far as the caller of the parser can tell. -/
structure SameRequest (s t : HttpParseState) : Prop where
  method : s.method = t.method
  uri : s.uri = t.uri
  version : s.version = t.version
  headers : s.headers = t.headers
  contentLength : s.contentLength = t.contentLength
  chunked : s.chunked = t.chunked
  keepAlive : s.keepAlive = t.keepAlive
  upgrade : s.upgrade = t.upgrade
  bodyOffset : s.bodyOffset = t.bodyOffset
  parsedBytes : s.parsedBytes = t.parsedBytes

lemma SameRequest.refl (s : HttpParseState) : SameRequest s s :=
  ⟨rfl, rfl, rfl, rfl, rfl, rfl, rfl, rfl, rfl, rfl⟩

/-- The bytes `c` that follow do not change what the parser decides on `b`. -/
def Stable (b c : List UInt8) : Prop :=
  ((parseFresh b).1 = .done →
    (parseFresh (b ++ c)).1 = .done ∧ SameRequest (parseFresh b).2 (parseFresh (b ++ c)).2) ∧
  ((parseFresh b).1 = .error → (parseFresh (b ++ c)).1 = .error)

/-- The text ends right behind the request line or a header line: all its lines
are acceptable, the blank line is not there yet, and the headers so far announce
no body. -/
def StopsBetweenLines (b : List UInt8) : Prop :=
  ∃ line ls, Head b line ls [] ∧ Acceptable line ls ∧
    declaredLength (-1) (lineHeaders (line.length + 2) ls) ≤ 0

/-! ### The head of a longer text -/

lemma Head.append {b line rest : List UInt8} {ls : List (List UInt8)} (h : Head b line ls rest)
    (c : List UInt8) : ∃ ls' rest', Head (b ++ c) line (ls ++ ls') rest' := by
  obtain ⟨-, ls', rest', hs⟩ := HeadSplit.append
    (⟨rfl, h.lines, h.stop⟩ : HeadSplit cr lf (joinLines cr lf ls ++ rest) ls rest) c
  refine ⟨ls', rest', h.isLine, ?_, hs.lines, hs.stop⟩
  rw [← hs.eq, h.eq]
  simp

/-- Behind the blank line, more text only makes the rest longer. -/
lemma Head.append_blank {b line rest : List UInt8} {ls : List (List UInt8)}
    (h : Head b line ls rest) (hblank : findPair cr lf rest = some 0) (c : List UInt8) :
    Head (b ++ c) line ls (rest ++ c) := by
  refine ⟨h.isLine, ?_, h.lines, Or.inr (Lines.findPair_append c hblank)⟩
  rw [h.eq]
  simp

/-! ### Stability -/

/-- **A rejected prefix stays rejected.** -/
lemma parse_error_append {b : List UInt8} (c : List UInt8) (h : (parseFresh b).1 = .error) :
    (parseFresh (b ++ c)).1 = .error := by
  cases hf : findCrlf b with
  | none => simp [parseFresh, httpParseRequest, hf] at h
  | some n =>
    obtain ⟨ls, rest, hb⟩ := exists_head hf
    obtain ⟨ls', rest', hbc⟩ := hb.append c
    refine hbc.parse_error fun hacc => ?_
    -- acceptable lines end in one of three ways, and none of them is an error
    rw [hb.parse hacc.of_append] at h
    split at h
    · exact finishParse_ne_error _ _ _ h
    · split at h
      · exact finishParse_ne_error _ _ _ h
      · simp at h

/-- An accepted text stops between two lines, or it has the blank line behind
acceptable lines. -/
lemma done_cases {b : List UInt8} (h : (parseFresh b).1 = .done) :
    StopsBetweenLines b ∨
      ∃ line ls rest, Head b line ls rest ∧ Acceptable line ls ∧ findPair cr lf rest = some 0 := by
  cases hf : findCrlf b with
  | none => simp [parseFresh, httpParseRequest, hf] at h
  | some n =>
    obtain ⟨ls, rest, hb⟩ := exists_head hf
    by_cases hacc : Acceptable (b.take n) ls
    · have hp := hb.parse hacc
      by_cases hnil : rest = []
      · -- the loop ended at `end`: nothing is left for a body
        subst hnil
        left
        refine ⟨b.take n, ls, hb, hacc, ?_⟩
        rw [if_pos rfl, finishParse_eq] at hp
        rw [hp] at h
        rw [← hacc.headState_fields.2.1]
        by_contra hpos
        have hlen := hb.length_eq
        rw [if_pos (by omega), if_pos (by simp only [List.length_nil] at hlen; omega)] at h
        simp at h
      · right
        refine ⟨b.take n, ls, rest, hb, hacc, ?_⟩
        by_contra hblank
        rw [if_neg hnil, if_neg hblank] at hp
        rw [hp] at h
        simp at h
    · rw [hb.parse_error hacc] at h
      simp at h

/-- **An accepted prefix with its blank line stays accepted**, as the same
request. -/
lemma parse_done_append {b : List UInt8} (c : List UInt8) (h : (parseFresh b).1 = .done)
    (hb : ¬StopsBetweenLines b) : parseFresh (b ++ c) = parseFresh b := by
  rcases done_cases h with hstop | ⟨line, ls, rest, hhead, hacc, hblank⟩
  · exact absurd hstop hb
  · have hne : rest ≠ [] := by rintro rfl; simp at hblank
    have hp := hhead.parse hacc
    have hp' := (hhead.append_blank hblank c).parse hacc
    rw [if_neg hne, if_pos hblank] at hp
    rw [if_neg (by simp [hne]), if_pos (Lines.findPair_append c hblank)] at hp'
    rw [hp] at h
    rw [hp, hp']
    exact finishParse_mono (by simp) h

/-- A text that stops between two lines is accepted, but with one more letter it
is an unfinished request. -/
lemma stopsBetweenLines_spec {b : List UInt8} (h : StopsBetweenLines b) :
    (parseFresh b).1 = .done ∧ (parseFresh (b ++ [88])).1 = .incomplete := by
  obtain ⟨line, ls, hhead, hacc, hlen⟩ := h
  constructor
  · rw [hhead.parse hacc, if_pos rfl, finishParse_eq, hacc.headState_fields.2.1,
      if_neg (by omega)]
  · have hhead' : Head (b ++ [88]) line ls [88] := by
      refine ⟨hhead.isLine, ?_, hhead.lines, Or.inl rfl⟩
      rw [hhead.eq]
      simp
    rw [hhead'.parse hacc]
    simp

/-- **Stability of the parser**: what it decides on `b` is what it decides on
every longer text, exactly when `b` does not stop between two lines. -/
lemma stable_iff (b : List UInt8) : (∀ c, Stable b c) ↔ ¬StopsBetweenLines b := by
  constructor
  · intro hstable hstop
    obtain ⟨hdone, hinc⟩ := stopsBetweenLines_spec hstop
    have := ((hstable [88]).1 hdone).1
    rw [hinc] at this
    simp at this
  · intro hb c
    refine ⟨fun h => ?_, parse_error_append c⟩
    rw [parse_done_append c h hb]
    exact ⟨h, SameRequest.refl _⟩

end Nproxy
