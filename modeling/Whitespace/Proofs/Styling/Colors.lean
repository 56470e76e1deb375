import Whitespace.Listing.Text
import Whitespace.Proofs.Styling.Stripping
import Whitespace.Proofs.Tracing.Transparency

/-!
Colours change no text. The lines of a listing are painted line by line (`Listing.forall₂_lines`), and so
are the lines of a trace, whatever events it is told and in whatever order (`Trace.forall₂_lines`). A
printer whose sink takes all writes just these lines, so the same holds of what it prints of a text that
is read and a program that is run.
-/

namespace Whitespace

open Palette

namespace Listing

theorem bare_target (layout : Layout) (labels : Std.TreeMap Value Nat) (instruction : Instruction) :
    Bare (target layout labels instruction) := by
  unfold target
  split
  · decide
  · decide
  · split
    · exact bare_index layout _
    · decide

theorem paints_line (layout : Layout) (labels : Std.TreeMap Value Nat) (index : Nat)
    (instruction : Instruction) :
    Paints (line ⟨true⟩ layout labels index instruction)
      (line ⟨false⟩ layout labels index instruction) :=
  ((paints_paint (bare_numbered layout index _) .gutter).append
    (paints_painted instruction)).withTarget (bare_target layout labels instruction)

theorem paints_labelLine (layout : Layout) (label : Value) (index : Nat) :
    Paints (labelLine ⟨true⟩ layout label index) (labelLine ⟨false⟩ layout label index) := by
  have hequals : Bare " = " := by decide
  exact ((paints_paint (bare_labelName label) .label).append hequals.paints).append
    (bare_index layout index).paints

theorem forall₂_labelLines (layout : Layout) (labels : Std.TreeMap Value Nat) :
    List.Forall₂ Paints (labelLines ⟨true⟩ layout labels) (labelLines ⟨false⟩ layout labels) := by
  unfold labelLines
  split
  · exact .nil
  · refine .cons (paints_paint (by decide) .heading) (List.rel_append ?_ ?_)
    · rw [List.forall₂_map_left_iff, List.forall₂_map_right_iff, List.forall₂_same]
      exact fun entry _ => paints_labelLine layout entry.1 entry.2
    · have hempty : Bare "" := by decide
      exact .cons hempty.paints .nil

theorem forall₂_codeLines (layout : Layout) (labels : Std.TreeMap Value Nat) (program : Program) :
    List.Forall₂ Paints (codeLines ⟨true⟩ layout labels program)
      (codeLines ⟨false⟩ layout labels program) := by
  refine .cons (paints_paint (by decide) .heading) ?_
  rw [List.forall₂_map_left_iff, List.forall₂_map_right_iff, List.forall₂_same]
  exact fun entry _ => paints_line layout labels entry.2 entry.1

theorem forall₂_lines (program : Program) :
    List.Forall₂ Paints (lines ⟨true⟩ program) (lines ⟨false⟩ program) :=
  List.rel_append (forall₂_labelLines _ _) (forall₂_codeLines _ _ _)

end Listing

namespace Trace

theorem paints_labelLine (layout : Layout) (symbol : Symbol) (label : Value) (target : Nat) :
    Paints (labelLine ⟨true⟩ layout symbol label target)
      (labelLine ⟨false⟩ layout symbol label target) :=
  ((bare_unnumbered layout symbol).paints.append
    (paints_paint (bare_labelName label) .label)).withTarget (bare_index layout target)

theorem forall₂_line? (layout : Layout) (event : Event) :
    List.Forall₂ Paints (line? ⟨true⟩ layout event).toList (line? ⟨false⟩ layout event).toList := by
  cases event with
  | decoded index offset instruction =>
    have hline : Bare (layout.numbered index .decode ++ instruction.display ++ " ") := by
      simp +decide
    have hoffset : Bare s!"@{offset}" := bare_append_iff.mpr ⟨by decide, bare_repr offset⟩
    exact .cons (hline.paints.append (paints_paint hoffset .gutter)) .nil
  | program size => exact .nil
  | instruction pc instruction =>
    exact .cons ((paints_paint (bare_numbered layout pc .empty) .gutter).append
      (paints_painted instruction)) .nil
  | stack values =>
    exact .cons ((bare_unnumbered layout .stack).paints.append
      (paints_paint (bare_stack values) .gutter)) .nil
  | label label target => exact .cons (paints_labelLine layout .label label target) .nil
  | jump label target => exact .cons (paints_labelLine layout .jump label target) .nil
  | call label target => exact .cons (paints_labelLine layout .call label target) .nil
  | ret target =>
    exact .cons ((bare_unnumbered layout .ret).paints.withTarget (bare_index layout target)) .nil
  | halt pc explicit =>
    cases explicit with
    | true =>
      exact .cons ((bare_unnumbered layout .halt).paints.append
        (paints_paint (by decide) .halt)) .nil
    | false =>
      exact .cons ((paints_paint (bare_numbered layout pc .halt) .gutter).append
        (paints_paint (by decide) .halt)) .nil

theorem forall₂_lines (verbosity : Verbosity) (layout : Layout) (events : List Event) :
    List.Forall₂ Paints (lines ⟨verbosity, ⟨true⟩, layout⟩ events)
      (lines ⟨verbosity, ⟨false⟩, layout⟩ events) := by
  induction events generalizing layout with
  | nil => exact .nil
  | cons event rest ih =>
    refine List.rel_append ?_ (ih (layoutAfter layout event))
    unfold shown?
    split
    · exact forall₂_line? layout event
    · exact .nil

end Trace

namespace Printer

def fresh (verbosity : Verbosity) (palette : Palette) : Printer where
  trace := ⟨verbosity, palette, Trace.initialLayout⟩

def page (lines : List String) : String := String.join (lines.map (· ++ "\n"))

def Wrote (printer : Printer) (lines : List String) : Prop :=
  printer.sink.written.toList = Text.Utf8.encodeText (page lines)

/-- One printer wrote what the other wrote, with escape sequences in it and nothing else. -/
def Colors (colored plain : Printer) : Prop :=
  ∃ coloredLines plainLines, colored.Wrote coloredLines ∧ plain.Wrote plainLines ∧
    coloredLines.map stripped = plainLines ∧ stripped (page coloredLines) = page plainLines

theorem takesAll_hear {printer : Printer} (htakes : printer.sink.TakesAll) (event : Event) :
    (printer.hear event).sink.TakesAll := by
  unfold hear
  split
  · rw [htakes.write]
    exact ⟨htakes.limit, htakes.device⟩
  · exact htakes

theorem Wrote.hear {printer : Printer} {lines : List String} (h : printer.Wrote lines)
    (htakes : printer.sink.TakesAll) (event : Event) :
    (printer.hear event).Wrote (lines ++ (printer.trace.shown? event).toList) := by
  unfold Wrote at h ⊢
  unfold Printer.hear
  cases printer.trace.shown? event with
  | none => simpa using h
  | some line =>
    simp [htakes.write, h, page, Text.Utf8.encodeText, String.join_append]

theorem Wrote.hearAll {printer : Printer} {lines : List String} (h : printer.Wrote lines)
    (htakes : printer.sink.TakesAll) (events : List Event) :
    (hearAll printer events).Wrote (lines ++ printer.trace.lines events) := by
  induction events generalizing printer lines with
  | nil => simpa [Trace.lines] using h
  | cons event rest ih =>
    rw [hearAll_cons, Trace.lines, ← List.append_assoc]
    exact ih (h.hear htakes event) (takesAll_hear htakes event)

theorem wrote_hearAll_fresh (verbosity : Verbosity) (palette : Palette) (events : List Event) :
    (hearAll (fresh verbosity palette) events).Wrote
      ((fresh verbosity palette).trace.lines events) := by
  have hnothing : (fresh verbosity palette).Wrote [] := rfl
  simpa using hnothing.hearAll ⟨rfl, rfl⟩ events

theorem colors_hearAll (verbosity : Verbosity) (events : List Event) :
    Colors (hearAll (fresh verbosity ⟨true⟩) events) (hearAll (fresh verbosity ⟨false⟩) events) := by
  have hlines := Trace.forall₂_lines verbosity Trace.initialLayout events
  exact ⟨_, _, wrote_hearAll_fresh _ _ _, wrote_hearAll_fresh _ _ _, map_stripped hlines,
    (paints_join hlines).stripped_eq⟩

end Printer

/-- Stripped of its escape sequences, a coloured listing is the plain one, line for line. So is whatever a
printer prints, at every verbosity and whatever it is told, and in particular what it prints while a text
is read and then a machine runs, be the run finished or not. -/
theorem colors_change_no_text :
    (∀ program,
      (Listing.lines ⟨true⟩ program).map stripped = Listing.lines ⟨false⟩ program ∧
        stripped (Listing.text ⟨true⟩ program) = Listing.text ⟨false⟩ program) ∧
      (∀ verbosity events,
        Printer.Colors (hearAll (Printer.fresh verbosity ⟨true⟩) events)
          (hearAll (Printer.fresh verbosity ⟨false⟩) events)) ∧
      ∀ verbosity source (machine : Machine) count,
        let told palette :=
          let read := (Traced.read source).run (Printer.fresh verbosity palette)
          ((Traced.execution count machine).run read.2).2
        Printer.Colors (told ⟨true⟩) (told ⟨false⟩) := by
  refine ⟨fun program => ?_, Printer.colors_hearAll, fun verbosity source machine count => ?_⟩
  · have hlines := Listing.forall₂_lines program
    exact ⟨map_stripped hlines, (paints_join hlines).stripped_eq⟩
  · simp only [Traced.run_read, Traced.run_execution, ← hearAll_append]
    exact Printer.colors_hearAll verbosity _

end Whitespace
