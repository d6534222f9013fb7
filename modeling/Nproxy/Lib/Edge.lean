import Mathlib.Tactic

/-!
Edge-triggered notification.

A condition is reported when it holds and that is news: something has happened since the
last report, or the one who is told has asked anew (`armed`).

* `Signal`: a condition that comes and goes.
* `Inbox`: cells that wait to be read, with an end behind them. What is unread is the
  condition, and whatever arrives is news.
* `Inbox.Noticed`: nothing waits without a report of it being due. Everything that arrives
  is noticed, and a reader who is told keeps it so by reading all there is
  (`noticed_of_drained`).
-/

namespace Edge

/-- A condition that is reported at its edges: does it hold, and has something happened
since the last report? -/
structure Signal where
  ready : Bool
  news : Bool
  deriving DecidableEq, Repr

namespace Signal

/-- A report is due. -/
def due (s : Signal) (armed : Bool) : Bool := s.ready && (s.news || armed)

/-- The condition comes to hold, or ceases to. -/
def turn (s : Signal) (b : Bool) : Signal := ⟨b, s.news || (b && !s.ready)⟩

/-- It was reported. -/
def reported (s : Signal) : Signal := { s with news := false }

end Signal

/-- Cells that wait to be read, whether there is an end behind them, and whether something
has arrived since the last report. -/
structure Inbox (α : Type*) where
  cells : List α
  ended : Bool
  news : Bool
  deriving DecidableEq, Repr

namespace Inbox

variable {α : Type*} (b : Inbox α)

/-- There is something to read, the end included. -/
def unread : Bool := !b.cells.isEmpty || b.ended

def signal : Signal := ⟨b.unread, b.news⟩

def arrive (as : List α) : Inbox α := { b with cells := b.cells ++ as, news := true }

def finish : Inbox α := { b with ended := true, news := true }

/-- It was reported that there is something to read. -/
def reported : Inbox α := { b with news := false }

/-- So many cells were read. -/
def take (n : ℕ) : Inbox α := { b with cells := b.cells.drop n }

/-- **Nothing waits unnoticed**: if there is something to read, a report is due. -/
def Noticed (armed : Bool) : Prop := b.unread = true → b.signal.due armed = true

variable {b}

lemma noticed_of_news (h : b.news = true) (armed : Bool) : b.Noticed armed := by
  intro hunread
  simp [signal, Signal.due, hunread, h]

lemma noticed_armed (b : Inbox α) : b.Noticed true := by
  intro hunread
  simp [signal, Signal.due, hunread]

lemma noticed_of_not_unread (h : b.unread = false) (armed : Bool) : b.Noticed armed := by
  intro hunread
  rw [h] at hunread
  contradiction

/-- A reader who has read all there is. -/
lemma noticed_of_drained {n : ℕ} (hn : n = b.cells.length) (hended : b.ended = false)
    (armed : Bool) : (b.take n).Noticed armed :=
  noticed_of_not_unread (by simp [unread, take, hn, hended]) armed

end Inbox

end Edge
