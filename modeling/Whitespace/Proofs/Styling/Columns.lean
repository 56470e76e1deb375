import Whitespace.Listing.Text
import Whitespace.Proofs.Styling.Stripping
import Whitespace.Trace

/-!
Columns. What a terminal shows of plain text and whole escape sequences is the plain text (`Shows`), so the
width of a painted content is counted right. Every line of a trace and every instruction of a listing is a
head, a content and perhaps a target: the heads of a layout are equally wide, with an index or without,
and the target stands at the target column or, behind a content too wide for that, after two blanks.
-/

namespace Whitespace

namespace Palette

def width (text : String) : Nat := (visible text).length

namespace Shows

variable {painted plain : String}

theorem width_eq (h : Shows painted plain) : width painted = plain.length := by
  rw [width, h.paints.visible_eq, String.length_toList]

theorem width_append_blanks (h : Shows painted plain) (count : Nat) :
    width (painted ++ Layout.blanks count) = width painted + count := by
  have hblanks : Shows (Layout.blanks count) (Layout.blanks count) := .plain (bare_blanks count)
  rw [(h.append hblanks).width_eq, h.width_eq, String.length_append]
  simp [Layout.blanks]

end Shows

end Palette

open Palette

namespace Layout

variable {layout : Layout}

theorem length_column (symbol : Symbol) : symbol.column.length = 5 := by
  cases symbol <;> rfl

theorem length_unnumbered (symbol : Symbol) :
    (layout.unnumbered symbol).length = layout.indexWidth + 9 := by
  have hgap : " ".length = 1 := rfl
  rw [unnumbered, String.length_append, String.length_append, length_column, hgap, blanks,
    String.length_ofList, List.length_replicate]
  omega

theorem length_index {number : Nat} (h : (Nat.toDigits 10 number).length ≤ layout.indexWidth) :
    (layout.index number).length = layout.indexWidth := by
  rw [index, Text.Decimal.zeroPadded, String.length_ofList, List.length_leftpad]
  exact Nat.max_eq_left h

theorem length_numbered {number : Nat}
    (h : (Nat.toDigits 10 number).length ≤ layout.indexWidth) (symbol : Symbol) :
    (layout.numbered number symbol).length = layout.indexWidth + 9 := by
  have hindent : "  ".length = 2 := rfl
  have hgap : " ".length = 1 := rfl
  simp only [numbered, String.length_append, length_index h, length_column, hindent, hgap]
  omega

/-- A head of a line, that is all before its content: the indent and the columns of index and symbol. -/
structure IsHead (layout : Layout) (head : String) : Prop where
  shows : ∃ plain, Shows head plain
  width : width head = layout.indexWidth + 9

def InColumns (layout : Layout) (line : String) : Prop :=
  ∃ head content plain target, layout.IsHead head ∧ Shows content plain ∧
    line = withTarget (head ++ content) target

theorem isHead_unnumbered (symbol : Symbol) : layout.IsHead (layout.unnumbered symbol) := by
  have hshows : Shows (layout.unnumbered symbol) (layout.unnumbered symbol) :=
    .plain (bare_unnumbered layout symbol)
  exact ⟨⟨_, hshows⟩, by rw [hshows.width_eq, length_unnumbered]⟩

theorem isHead_of_shows_numbered {head : String} {number : Nat} {symbol : Symbol}
    (hshows : Shows head (layout.numbered number symbol))
    (hnumber : (Nat.toDigits 10 number).length ≤ layout.indexWidth) : layout.IsHead head :=
  ⟨⟨_, hshows⟩, by rw [hshows.width_eq, length_numbered hnumber]⟩

theorem IsHead.withTarget {head content plain : String} (hhead : layout.IsHead head)
    (hcontent : Shows content plain) (target : String) :
    layout.InColumns (withTarget (head ++ content) target) :=
  ⟨head, content, plain, target, hhead, hcontent, rfl⟩

theorem IsHead.append {head content plain : String} (hhead : layout.IsHead head)
    (hcontent : Shows content plain) : layout.InColumns (head ++ content) :=
  hhead.withTarget hcontent ""

theorem exists_gap_of_shows {base plain target : String} (h : Shows base plain) (hne : target ≠ "") :
    ∃ gap ≥ 2, withTarget base target = base ++ blanks gap ++ target ∧
      Palette.width (base ++ blanks gap) = max 36 (Palette.width base + 2) := by
  refine ⟨_, Nat.le_max_right _ _, withTarget_of_ne_empty base hne, ?_⟩
  rw [h.width_append_blanks, Palette.width, targetColumn]
  omega

end Layout

def Event.number? : Event → Option Nat
  | .decoded index .. => some index
  | .instruction pc _ => some pc
  | .halt pc false => some pc
  | _ => none

section

variable {layout : Layout} (palette : Palette)

theorem Trace.inColumns_labelLine (symbol : Symbol) (label : Value) (target : Nat) :
    layout.InColumns (labelLine palette layout symbol label target) :=
  (Layout.isHead_unnumbered symbol).withTarget
    (shows_paint (bare_labelName label) palette .label) _

theorem Trace.inColumns_line? {event : Event} {line : String}
    (hnumber : ∀ number, event.number? = some number →
      (Nat.toDigits 10 number).length ≤ layout.indexWidth)
    (hline : line? palette layout event = some line) : layout.InColumns line := by
  cases event with
  | decoded index offset instruction =>
    obtain rfl := Option.some.inj hline
    have hoffset : Bare s!"@{offset}" := bare_append_iff.mpr ⟨by decide, bare_repr offset⟩
    have hdisplay : Shows instruction.display instruction.display :=
      .plain (bare_display_instruction instruction)
    have hblank : Shows " " " " := .plain (by decide)
    have hhead := Layout.isHead_of_shows_numbered
      (.plain (bare_numbered layout index .decode)) (hnumber index rfl)
    rw [String.append_assoc, String.append_assoc]
    exact hhead.append (hdisplay.append (hblank.append (shows_paint hoffset palette .gutter)))
  | program size => cases hline
  | instruction pc instruction =>
    obtain rfl := Option.some.inj hline
    exact (Layout.isHead_of_shows_numbered
      (shows_paint (bare_numbered layout pc .empty) palette .gutter) (hnumber pc rfl)).append
      (shows_painted palette instruction)
  | stack values =>
    obtain rfl := Option.some.inj hline
    exact (Layout.isHead_unnumbered .stack).append
      (shows_paint (bare_stack values) palette .gutter)
  | label label target =>
    obtain rfl := Option.some.inj hline
    exact inColumns_labelLine palette .label label target
  | jump label target =>
    obtain rfl := Option.some.inj hline
    exact inColumns_labelLine palette .jump label target
  | call label target =>
    obtain rfl := Option.some.inj hline
    exact inColumns_labelLine palette .call label target
  | ret target =>
    obtain rfl := Option.some.inj hline
    have hempty : Shows "" "" := .plain (by decide)
    have hhead : layout.IsHead (layout.unnumbered .ret) := Layout.isHead_unnumbered .ret
    have hline := hhead.withTarget hempty (layout.index target)
    rwa [String.append_empty] at hline
  | halt pc explicit =>
    cases explicit with
    | true =>
      obtain rfl := Option.some.inj hline
      exact (Layout.isHead_unnumbered .halt).append (shows_paint (by decide) palette .halt)
    | false =>
      obtain rfl := Option.some.inj hline
      exact (Layout.isHead_of_shows_numbered
        (shows_paint (bare_numbered layout pc .halt) palette .gutter) (hnumber pc rfl)).append
        (shows_paint (by decide) palette .halt)

theorem Listing.inColumns_line (labels : Std.TreeMap Value Nat) {index : Nat}
    (hindex : (Nat.toDigits 10 index).length ≤ layout.indexWidth) (instruction : Instruction) :
    layout.InColumns (line palette layout labels index instruction) :=
  (Layout.isHead_of_shows_numbered
    (shows_paint (bare_numbered layout index _) palette .gutter) hindex).withTarget
    (shows_painted palette instruction) _

end

/-- The lines of traces and listings share their columns. For indices that the index column holds, the
heads of lines are equally wide, whether or not there is an index and whichever symbol there is. A line of
plain text and whole escape sequences is as wide as its plain text. Without a target it is left as it is;
a target comes behind it at column 36, or behind two blanks if the line reaches farther than column 34.
The lines of all events and of all instructions are put together in this way. -/
theorem columns_line_up (layout : Layout) :
    (∀ symbol, width (layout.unnumbered symbol) = layout.indexWidth + 9 ∧
      ∀ number, (Nat.toDigits 10 number).length ≤ layout.indexWidth →
        width (layout.numbered number symbol) = layout.indexWidth + 9) ∧
      (∀ base plain, Shows base plain →
        width base = plain.length ∧ Layout.withTarget base "" = base ∧
          ∀ target, target ≠ "" →
            ∃ gap ≥ 2, Layout.withTarget base target = base ++ Layout.blanks gap ++ target ∧
              width (base ++ Layout.blanks gap) = max 36 (width base + 2)) ∧
      (∀ palette event line,
        (∀ number, event.number? = some number →
          (Nat.toDigits 10 number).length ≤ layout.indexWidth) →
        Trace.line? palette layout event = some line → layout.InColumns line) ∧
      ∀ palette labels index instruction,
        (Nat.toDigits 10 index).length ≤ layout.indexWidth →
          layout.InColumns (Listing.line palette layout labels index instruction) := by
  refine ⟨fun symbol => ⟨(Layout.isHead_unnumbered symbol).width, fun number hnumber => ?_⟩,
    fun base plain hshows => ⟨hshows.width_eq, rfl, fun target hne => ?_⟩,
    fun palette event line hnumber hline => ?_, fun palette labels index instruction hindex => ?_⟩
  · exact (Layout.isHead_of_shows_numbered (.plain (bare_numbered layout number symbol))
      hnumber).width
  · exact Layout.exists_gap_of_shows hshows hne
  · exact Trace.inColumns_line? palette hnumber hline
  · exact Listing.inColumns_line palette labels hindex instruction

/-- In three index columns: a head with the index 42, a painted label with its target, and the lines of a
run that fell off the end and of a listed instruction. -/
theorem columns_line_up_painted_label :
    let layout : Layout := ⟨3⟩
    let label := Palette.paint ⟨true⟩ .label "L5"
    (Nat.toDigits 10 42).length ≤ 3 ∧ width (layout.numbered 42 .call) = 12 ∧ Shows label "L5" ∧
      (∃ gap ≥ 2, Layout.withTarget label "042" = label ++ Layout.blanks gap ++ "042" ∧
        width (label ++ Layout.blanks gap) = 36) ∧
      (∃ line, Trace.line? ⟨true⟩ layout (.halt 42 false) = some line ∧ layout.InColumns line) ∧
      layout.InColumns (Listing.line ⟨true⟩ layout ∅ 42 (.flow .stop)) := by
  intro layout label
  have hnumber : (Nat.toDigits 10 42).length ≤ layout.indexWidth := by decide
  have hlabel : Shows label "L5" := shows_paint (by decide) ⟨true⟩ .label
  obtain ⟨hhead, hbase, htrace, hlisting⟩ := columns_line_up layout
  obtain ⟨gap, hgap, htarget, hcolumn⟩ := (hbase label "L5" hlabel).2.2 "042" (by decide)
  have hhalt := htrace ⟨true⟩ (.halt 42 false) _ (fun number h => by cases h; exact hnumber) rfl
  exact ⟨hnumber, (hhead .call).2 42 hnumber, hlabel, ⟨gap, hgap, htarget, hcolumn.trans (by decide)⟩,
    ⟨_, rfl, hhalt⟩, hlisting ⟨true⟩ ∅ 42 (.flow .stop) hnumber⟩

end Whitespace
