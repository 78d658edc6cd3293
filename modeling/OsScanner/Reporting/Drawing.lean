import Mathlib
import OsScanner.Lib.Method
import OsScanner.Reporting.Table

/-!
# What the layout draws

Every method of the layout draws some operations on the pages, and moves on. So whatever the sections
of a report call, and in whatever order, each command on a page is the command of something that was
drawn there.
-/

namespace OsScanner.Reporting

open Lib Lib.Check Lib.Pdf Storage

/-! ## Operations of a method -/

/-- From one layout to another, these operations were drawn. -/
def Draws (ops : List DrawOp) (layout layout' : Layout) : Prop :=
  ops.foldlM Canvas.perform layout.toCanvas = .ok layout'.toCanvas

theorem Draws.nil {layout : Layout} {y : ℚ} : Draws [] layout { layout with y := y } := rfl

theorem Draws.append {ops more : List DrawOp} {layout middle layout' : Layout}
    (h : Draws ops layout middle) (hmore : Draws more middle layout') :
    Draws (ops ++ more) layout layout' := by
  rw [Draws, List.foldlM_append, h]
  exact hmore

/-- Where the layout stands is not drawn. -/
theorem Draws.moved {ops : List DrawOp} {layout layout' : Layout} (h : Draws ops layout layout')
    (y : ℚ) : Draws ops layout { layout' with y := y } := h

namespace Layout

/-! ## One method after the other -/

theorem draws_newPage {title : String} {cover : Bool} {layout layout' : Layout}
    (h : layout.newPage title cover = .ok layout') :
    Draws [.page title cover] layout layout' ∧
      layout'.y = if cover then pageHeight - top else pageHeight - top - 10 := by
  rw [newPage, bind_eq_ok] at h
  obtain ⟨canvas, hcanvas, h⟩ := h
  cases h
  refine ⟨?_, rfl⟩
  rw [Draws, List.foldlM_cons]
  show layout.toCanvas.newPage title cover >>= _ = _
  rw [hcanvas]
  rfl

theorem draws_draw {shape : Shape} {layout layout' : Layout} (h : layout.draw shape = .ok layout') :
    Draws [.shape shape] layout layout' ∧ layout'.y = layout.y := by
  rw [draw, bind_eq_ok] at h
  obtain ⟨canvas, hcanvas, h⟩ := h
  cases h
  refine ⟨?_, rfl⟩
  rw [Draws, List.foldlM_cons]
  show layout.toCanvas.draw shape >>= _ = _
  rw [hcanvas]
  rfl

theorem draws_drawAll {shapes : List Shape} : ∀ {layout layout' : Layout},
    layout.drawAll shapes = .ok layout' →
      Draws (shapes.map .shape) layout layout' ∧ layout'.y = layout.y := by
  induction shapes with
  | nil =>
    intro layout layout' h
    cases h
    exact ⟨rfl, rfl⟩
  | cons shape shapes ih =>
    intro layout layout' h
    rw [drawAll, List.foldlM_cons, bind_eq_ok] at h
    obtain ⟨middle, hfirst, hrest⟩ := h
    obtain ⟨hdraws, hy⟩ := draws_draw hfirst
    obtain ⟨hdraws', hy'⟩ := ih hrest
    exact ⟨hdraws.append hdraws', hy'.trans hy⟩

/-- The height is there already, or a page begins. -/
theorem draws_ensure {height : ℚ} {title : String} {layout layout' : Layout}
    (h : layout.ensure height title = .ok layout') :
    (layout' = layout ∧ bottom ≤ layout.y - height) ∨
      (Draws [.page title false] layout layout' ∧ layout'.y = pageHeight - top - 10) := by
  rw [ensure] at h
  split at h
  · obtain ⟨hdraws, hy⟩ := draws_newPage h
    exact .inr ⟨hdraws, hy⟩
  next hroom =>
    cases h
    exact .inl ⟨rfl, not_lt.mp hroom⟩

theorem exists_draws_ensure {height : ℚ} {title : String} {layout layout' : Layout}
    (h : layout.ensure height title = .ok layout') : ∃ ops, Draws ops layout layout' := by
  obtain ⟨rfl, -⟩ | ⟨hdraws, -⟩ := draws_ensure h
  · exact ⟨[], rfl⟩
  · exact ⟨_, hdraws⟩

theorem exists_draws_textLines {title : String} {size leading : ℚ} {color : Color} {bold : Bool} :
    ∀ {lines : List String} {layout layout' : Layout},
      textLines title size leading color bold lines layout = .ok layout' →
        ∃ ops, Draws ops layout layout' := by
  intro lines
  induction lines with
  | nil =>
    intro layout layout' h
    cases h
    exact ⟨[], rfl⟩
  | cons line lines ih =>
    intro layout layout' h
    rw [textLines, bind_eq_ok] at h
    obtain ⟨ensured, hensure, h⟩ := h
    obtain ⟨drawn, hdraw, h⟩ := bind_eq_ok.mp h
    obtain ⟨ops, hops⟩ := exists_draws_ensure hensure
    obtain ⟨more, hmore⟩ := ih h
    exact ⟨_, (hops.append (draws_draw hdraw).1).append hmore⟩

theorem exists_draws_paragraph {value title : String} {width size leading : ℚ} {color : Color}
    {bold : Bool} {layout layout' : Layout}
    (h : layout.paragraph value title width size leading color bold = .ok layout') :
    ∃ ops, Draws ops layout layout' := by
  rw [paragraph, bind_eq_ok] at h
  obtain ⟨drawn, hlines, h⟩ := h
  cases h
  obtain ⟨ops, hops⟩ := exists_draws_textLines hlines
  exact ⟨ops, hops.moved _⟩

theorem exists_draws_heading {title titleOfPage : String} {level : Nat} {layout layout' : Layout}
    (h : layout.heading title titleOfPage level = .ok layout') : ∃ ops, Draws ops layout layout' := by
  rw [heading, bind_eq_ok] at h
  obtain ⟨ensured, hensure, h⟩ := h
  obtain ⟨ops, hops⟩ := exists_draws_ensure hensure
  split at h
  · obtain ⟨barred, hbar, h⟩ := bind_eq_ok.mp h
    obtain ⟨drawn, hdraw, h⟩ := bind_eq_ok.mp h
    cases h
    exact ⟨_, ((hops.append (draws_draw hbar).1).append (draws_draw hdraw).1).moved _⟩
  · obtain ⟨drawn, hdraw, h⟩ := bind_eq_ok.mp h
    cases h
    exact ⟨_, (hops.append (draws_draw hdraw).1).moved _⟩

theorem exists_draws_keyValueRows {title : String} : ∀ {rows : List (String × Option String)}
    {layout layout' : Layout}, keyValueRows title rows layout = .ok layout' →
      ∃ ops, Draws ops layout layout' := by
  intro rows
  induction rows with
  | nil =>
    intro layout layout' h
    cases h
    exact ⟨[], rfl⟩
  | cons row rows ih =>
    intro layout layout' h
    obtain ⟨label, value⟩ := row
    rw [keyValueRows, bind_eq_ok] at h
    obtain ⟨ensured, hensure, h⟩ := h
    obtain ⟨labelled, hlabel, h⟩ := bind_eq_ok.mp h
    obtain ⟨drawn, hdraw, h⟩ := bind_eq_ok.mp h
    obtain ⟨ops, hops⟩ := exists_draws_ensure hensure
    obtain ⟨more, hmore⟩ := ih h
    exact ⟨_, ((hops.append (draws_draw hlabel).1).append (draws_draw hdraw).1).append hmore⟩

theorem exists_draws_keyValues {rows : List (String × Option String)} {title : String}
    {layout layout' : Layout} (h : layout.keyValues rows title = .ok layout') :
    ∃ ops, Draws ops layout layout' := by
  rw [keyValues, bind_eq_ok] at h
  obtain ⟨drawn, hrows, h⟩ := h
  cases h
  obtain ⟨ops, hops⟩ := exists_draws_keyValueRows hrows
  exact ⟨ops, hops.moved _⟩

end Layout

end OsScanner.Reporting
