import Nproxy.Http.Head
import Nproxy.Http.Request
import Nproxy.Lib.Memory

/-!
Where the slices of a request point.

The parser copies nothing: the path, the names and the values of a request are pointers
into the text that was parsed.

* `Str.PointsInto`: a slice stands in a text where it points to.
* `request_pointsInto`: so do the path and the headers of every request that is parsed.
* `Str.denotes`: what is read through a slice, from the memory as it is then.
-/

namespace Nproxy

open Lines (joinLines)
open Memory (slice)

/-- A slice that points into the text has its bytes from there. -/
def Str.PointsInto (s : Str) (data : List UInt8) : Prop :=
  ∀ off, s.ptr = .buf off → s.bytes <+: data.drop off

namespace Str.PointsInto

variable {s : Str} {data : List UInt8}

lemma of_mem {s : Str} (h : s.ptr = .mem) (data : List UInt8) : s.PointsInto data := by
  intro off hoff
  simp [h] at hoff

lemma of_prefix {bs : List UInt8} (h : s.PointsInto data) (hbs : bs <+: s.bytes) :
    Str.PointsInto ⟨s.ptr, bs⟩ data := fun off hoff => hbs.trans (h off hoff)

/-- The end of a slice, with the pointer moved there. -/
lemma add {front back : List UInt8} (h : s.PointsInto data) (heq : s.bytes = front ++ back) :
    Str.PointsInto ⟨s.ptr.add front.length, back⟩ data := by
  intro off hoff
  cases hptr : s.ptr with
  | null => simp [hptr, Ptr.add] at hoff
  | mem => simp [hptr, Ptr.add] at hoff
  | buf k =>
    simp only [hptr, Ptr.add, Ptr.buf.injEq] at hoff
    obtain ⟨rest, hrest⟩ := h k hptr
    refine ⟨rest, ?_⟩
    rw [← hoff, ← List.drop_drop, ← hrest, heq, List.append_assoc, List.drop_left]

lemma strTrim (h : s.PointsInto data) : (strTrim s).PointsInto data := by
  have hleft : (strTrimLeft s).PointsInto data :=
    h.add (List.takeWhile_append_dropWhile).symm
  exact hleft.of_prefix (List.rdropWhile_prefix _ _)

end Str.PointsInto

/-! ### What the parser stores -/

/-- The header of a line that stands at `cur`. -/
lemma lineHeader_pointsInto {data line : List UInt8} {cur : ℕ} (h : line <+: data.drop cur) :
    (lineHeader cur line).name.PointsInto data ∧ (lineHeader cur line).value.PointsInto data := by
  have hline : Str.PointsInto ⟨.buf cur, line⟩ data := by
    intro off hoff
    obtain rfl := Ptr.buf.inj hoff
    exact h
  refine ⟨(hline.of_prefix (List.take_prefix _ _)).strTrim, ?_⟩
  refine Str.PointsInto.strTrim fun off hoff => ?_
  obtain rfl := Ptr.buf.inj hoff
  have hdrop := h.drop (line.findIdx (· == 58) + 1)
  rwa [List.drop_drop, ← Nat.add_assoc] at hdrop

/-- The headers of lines that stand at `cur`, one behind the other. -/
lemma lineHeaders_pointsInto {data : List UInt8} {ls : List (List UInt8)} {cur : ℕ}
    (h : joinLines cr lf ls <+: data.drop cur) :
    ∀ x ∈ lineHeaders cur ls, x.name.PointsInto data ∧ x.value.PointsInto data := by
  induction ls generalizing cur with
  | nil => simp [lineHeaders]
  | cons l ls ih =>
    rw [Lines.joinLines_cons] at h
    intro x hx
    rw [lineHeaders, List.mem_cons] at hx
    rcases hx with rfl | hx
    · exact lineHeader_pointsInto ((List.prefix_append _ _).trans h)
    · refine ih ?_ x hx
      have hdrop := h.drop (l.length + 2)
      rw [List.drop_drop, ← Nat.add_assoc] at hdrop
      simpa [List.drop_append, List.drop_of_length_le] using hdrop

/-- The target of a request line at the front of the text. -/
lemma parseRequestLine_pointsInto {s s1 : HttpParseState} {data line : List UInt8}
    (h : parseRequestLine s line = some s1) (hline : line <+: data) : s1.uri.PointsInto data := by
  have huri : ∀ cur n, Str.PointsInto ⟨.buf cur, (line.drop cur).take n⟩ data := by
    intro cur n off hoff
    obtain rfl := Ptr.buf.inj hoff
    exact (List.take_prefix _ _).trans (hline.drop _)
  rw [parseRequestLine] at h
  split at h
  · simp at h
  · simp only at h
    split at h
    · simp at h
    · split at h
      · obtain rfl := Option.some.inj h
        exact huri _ _
      · split at h
        · obtain rfl := Option.some.inj h
          exact huri _ _
        · simp at h

/-- **Every slice of a request that is parsed points into the text.** -/
lemma done_pointsInto {data : List UInt8} (hd : (parseFresh data).1 = .done) :
    (parseFresh data).2.uri.PointsInto data ∧
      ∀ h ∈ (parseFresh data).2.headers, h.name.PointsInto data ∧ h.value.PointsInto data := by
  obtain ⟨k, ls, rest, hhead⟩ := exists_head_of_done hd
  obtain ⟨hacc, cur, m, -, -, hstate, -⟩ := hhead.of_done hd
  obtain ⟨hheaders, -, -⟩ := hacc.headState_fields
  obtain ⟨s1, hs1⟩ := Option.isSome_iff_exists.mp hacc.1
  obtain ⟨-, -, -, -, i5, -⟩ :=
    storeHeaders_fields s1 (lineHeaders ((data.take k).length + 2) ls)
  rw [hstate]
  simp only [settle, hheaders]
  refine ⟨?_, lineHeaders_pointsInto ⟨rest, ?_⟩⟩
  · rw [headState, hs1]
    simp only [i5]
    exact parseRequestLine_pointsInto hs1 (List.take_prefix _ _)
  · nth_rewrite 2 [hhead.eq]
    simp [List.drop_append]

/-- The path and the headers of the request. -/
lemma request_pointsInto {data : List UInt8} (hd : (parseFresh data).1 = .done) :
    (requestPopulate requestCreate (parseFresh data).2 data).path.PointsInto data ∧
      ∀ h ∈ (requestPopulate requestCreate (parseFresh data).2 data).headers,
        h.name.PointsInto data ∧ h.value.PointsInto data := by
  obtain ⟨huri, hheaders⟩ := done_pointsInto hd
  refine ⟨?_, by rwa [(requestPopulate_fields _ _ _).2.2]⟩
  have hpath := (requestPopulate_target requestCreate (parseFresh data).2 data).1
  have hptr : (requestPopulate requestCreate (parseFresh data).2 data).path.ptr =
      (parseFresh data).2.uri.ptr := by
    rw [requestPopulate]
    cases memchr (parseFresh data).2.uri.bytes 63 <;> simp only <;> split <;> rfl
  intro off hoff
  rw [hpath]
  exact (List.takeWhile_prefix _).trans (huri off (hptr ▸ hoff))

/-! ### What is read through a slice -/

/-- The bytes that a slice denotes, when the text that was parsed starts at `base` of a
block of memory. -/
def Str.denotes (s : Str) (base : ℕ) (mem : List UInt8) : List UInt8 :=
  match s.ptr with
  | .buf off => slice mem (base + off) (base + off + s.len)
  | _ => s.bytes

/-- As long as the text is there, it is the slice's own bytes. -/
lemma Str.PointsInto.denotes_eq {s : Str} {base stop : ℕ} {mem : List UInt8}
    (h : s.PointsInto (slice mem base stop)) : s.denotes base mem = s.bytes := by
  rw [Str.denotes]
  split
  · rename_i off hptr
    obtain ⟨rest, hrest⟩ := (h off hptr).trans
      ((List.take_prefix (stop - base) (mem.drop base)).drop off)
    rw [List.drop_drop] at hrest
    rw [slice, ← hrest, Nat.add_sub_cancel_left, Str.len, List.take_left]
  · rfl

end Nproxy
