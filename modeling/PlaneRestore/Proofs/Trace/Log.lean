import Mathlib.Data.List.Infix
import PlaneRestore.Boundary
/-!
The calls of a session and their answers.

* `callLog` lists the calls of the turns for which a session was led, with their answers.
* `Starts log w` says that a log is the start of a word, except that its last call may have got
  another answer, or none. `starts_append_iff` cuts this where the word is put together.

A call that was given up is listed without an answer. It may have been taken in or not even begun:
a run is over as soon as one of its calls is given up.
-/

namespace PlaneRestore

/-- A call and its answer; none if the call was given up. -/
structure LoggedCall where
  call : Call
  answer : Option call.Answer

/-- The turns of a session. -/
abbrev Turns : Type := List (Dialogue.Turn Question Question.Answer)

/-- The call of a turn, if one is made there. -/
def LoggedCall.ofTurn? : Dialogue.Turn Question Question.Answer → Option LoggedCall
  | ⟨.call c, a⟩ => some ⟨c, some a⟩
  | ⟨.guarded c _, .answered a⟩ => some ⟨c, some a⟩
  | ⟨.guarded c _, .cancelled⟩ => some ⟨c, none⟩
  | ⟨.guarded c _, .late⟩ => some ⟨c, none⟩
  | ⟨.now, _⟩ => none
  | ⟨.sleepUntil _, _⟩ => none
  | ⟨.report _, _⟩ => none
  | ⟨.extract _, _⟩ => none

/-- What the control plane was asked, and what it answered. -/
def callLog (ts : Turns) : List LoggedCall := ts.filterMap LoggedCall.ofTurn?

@[simp]
theorem callLog_nil : callLog [] = [] := rfl

@[simp]
theorem callLog_append (ts us : Turns) : callLog (ts ++ us) = callLog ts ++ callLog us :=
  List.filterMap_append

/-- The log is the start of the word, but for the answer to the last call of the log. -/
def Starts (log w : List LoggedCall) : Prop :=
  log.map (·.call) <+: w.map (·.call) ∧ log.dropLast <+: w

namespace Starts

variable {log u v w : List LoggedCall}

theorem refl (w : List LoggedCall) : Starts w w := ⟨List.prefix_rfl, List.dropLast_prefix w⟩

theorem nil (w : List LoggedCall) : Starts [] w := ⟨List.nil_prefix, List.nil_prefix⟩

theorem append_right (h : Starts log w) (v : List LoggedCall) : Starts log (w ++ v) := by
  refine ⟨?_, h.2.trans (List.prefix_append w v)⟩
  rw [List.map_append]
  exact h.1.trans (List.prefix_append _ _)

theorem append_left (h : Starts u v) (w : List LoggedCall) : Starts (w ++ u) (w ++ v) := by
  refine ⟨?_, ?_⟩
  · rw [List.map_append, List.map_append]
    exact List.prefix_append_right_inj _ |>.mpr h.1
  · cases u with
    | nil =>
      rw [List.append_nil]
      exact (List.dropLast_prefix w).trans (List.prefix_append w v)
    | cons e u =>
      rw [List.dropLast_append_of_ne_nil (by simp)]
      exact List.prefix_append_right_inj _ |>.mpr h.2

theorem length_le (h : Starts log w) : log.length ≤ w.length := by
  simpa using h.1.length_le

theorem trans (h : Starts u v) (h' : Starts v w) : Starts u w := by
  refine ⟨h.1.trans h'.1, ?_⟩
  have hle := h.length_le
  have hshort : u.dropLast <+: v.dropLast :=
    List.prefix_of_prefix_length_le h.2 (List.dropLast_prefix v)
      (by rw [List.length_dropLast, List.length_dropLast]; omega)
  exact hshort.trans h'.2

end Starts

/-- The start of two parts is the start of the first, or the first and the start of the second. -/
theorem starts_append_iff {log w v : List LoggedCall} :
    Starts log (w ++ v) ↔ Starts log w ∨ ∃ u, log = w ++ u ∧ Starts u v := by
  constructor
  · rintro ⟨hcalls, hanswers⟩
    rw [List.map_append] at hcalls
    rcases Nat.lt_or_ge w.length log.length with hlen | hlen
    · -- the answers of the first part have all been given
      have hw : w <+: log.dropLast := by
        refine List.prefix_of_prefix_length_le (List.prefix_append w v) hanswers ?_
        rw [List.length_dropLast]
        omega
      obtain ⟨u, rfl⟩ := hw.trans (List.dropLast_prefix log)
      refine .inr ⟨u, rfl, ?_, ?_⟩
      · rw [List.map_append] at hcalls
        exact List.prefix_append_right_inj _ |>.mp hcalls
      · have hne : u ≠ [] := by
          rintro rfl
          simp at hlen
        rw [List.dropLast_append_of_ne_nil hne] at hanswers
        exact List.prefix_append_right_inj _ |>.mp hanswers
    -- otherwise the log is no longer than the first part
    · refine .inl ⟨?_, ?_⟩
      · exact List.prefix_of_prefix_length_le hcalls (List.prefix_append _ _) (by simpa using hlen)
      · refine List.prefix_of_prefix_length_le hanswers (List.prefix_append w v) ?_
        rw [List.length_dropLast]
        omega
  · rintro (h | ⟨u, rfl, h⟩)
    · exact h.append_right v
    · exact h.append_left w

/-- The start of a single call. -/
theorem starts_singleton_iff {log : List LoggedCall} {e : LoggedCall} :
    Starts log [e] ↔ log = [] ∨ ∃ a, log = [⟨e.call, a⟩] := by
  constructor
  · intro h
    match log, h with
    | [], _ => exact .inl rfl
    | [⟨c, a⟩], h =>
      obtain rfl : c = e.call := by simpa using h.1
      exact .inr ⟨a, rfl⟩
    | _ :: _ :: _, h => simpa using h.length_le
  · rintro (rfl | ⟨a, rfl⟩)
    · exact .nil _
    · exact ⟨List.prefix_rfl, List.nil_prefix⟩

end PlaneRestore
