/-
The frameless window.

A window without the system's frame moves, resizes, maximizes and restores itself, from
the mouse events it gets.  Two things are expected of it while a button is held: an edge
that is dragged leaves the opposite edge where it is (`doResize_keeps`), and a maximized
window that is dragged off by its title bar stays under the mouse (`steady_iff`).  Whatever
else the mouse does, the size keeps its bounds (`sized`).

Coordinates are integers, and do not overflow.  Setting a geometry gives the window that
geometry.  What the mouse cursor looks like and the texts on the buttons are left out.
The ratio by which a window shrinks under the mouse is a floating-point number; the
offset computed from it is a parameter, `truncated`, and for examples what doubles make of
it, `doubleOffset`.
-/
import Mathlib.Algebra.Order.Ring.Int
import Mathlib.Tactic.Common
import Mathlib.Tactic.Linarith
import CloudMeeting.Lib.Run

namespace CloudMeeting.Client.FramelessWindow

/-! ### Geometry -/

structure Point where
  x : Int
  y : Int
deriving DecidableEq, Repr

structure Size where
  width : Int
  height : Int
deriving DecidableEq, Repr

structure Rect where
  x : Int
  y : Int
  width : Int
  height : Int
deriving DecidableEq, Repr

instance : Sub Point where
  sub p q := ⟨p.x - q.x, p.y - q.y⟩

@[simp] theorem Point.sub_x (p q : Point) : (p - q).x = p.x - q.x := rfl

@[simp] theorem Point.sub_y (p q : Point) : (p - q).y = p.y - q.y := rfl

def Size.expandedTo (s t : Size) : Size := ⟨max s.width t.width, max s.height t.height⟩

namespace Rect

def topLeft (r : Rect) : Point := ⟨r.x, r.y⟩

/-- `right()`, which is inside the rectangle. -/
def right (r : Rect) : Int := r.x + r.width - 1

def bottom (r : Rect) : Int := r.y + r.height - 1

def isValid (r : Rect) : Bool := 0 < r.width ∧ 0 < r.height

def contains (r : Rect) (p : Point) : Bool :=
  r.x ≤ p.x ∧ p.x ≤ r.right ∧ r.y ≤ p.y ∧ p.y ≤ r.bottom

end Rect

/-- `qBound`. -/
def qBound (lo v hi : Int) : Int := max lo (min hi v)

theorem qBound_eq_iff {lo hi : Int} (h : lo ≤ hi) (v : Int) :
    qBound lo v hi = v ↔ lo ≤ v ∧ v ≤ hi := by
  unfold qBound
  omega

/-! ### The window -/

/-- The edges that are dragged, one bit each. -/
abbrev ResizeRegion := Nat

namespace ResizeRegion

def none : ResizeRegion := 0
def left : ResizeRegion := 1
def right : ResizeRegion := 2
def top : ResizeRegion := 4
def bottom : ResizeRegion := 8

def includes (region edge : ResizeRegion) : Bool := region &&& edge ≠ 0

end ResizeRegion

def kBorderWidth : Int := 6
def kBtnMargin : Int := 6
def kBtnGap : Int := 4

/-- `QWIDGETSIZE_MAX`. -/
def widgetSizeMax : Int := 16777215

structure Window where
  geometry : Rect
  maximized : Bool := false
  minimumSize : Size := ⟨0, 0⟩
  minimumSizeHint : Size := ⟨-1, -1⟩
  maximumSize : Size := ⟨widgetSizeMax, widgetSizeMax⟩
  /-- The toolkit's own record of the geometry before the window was maximized. -/
  baseNormalGeometry : Rect := ⟨0, 0, 0, 0⟩
  dragging : Bool := false
  resizing : Bool := false
  resizable : Bool := true
  maximizable : Bool := true
  dragOffset : Point := ⟨0, 0⟩
  dragGlobalPos : Point := ⟨0, 0⟩
  dragGeometry : Rect := ⟨0, 0, 0, 0⟩
  normalGeometry : Rect := ⟨0, 0, 0, 0⟩
  resizeRegion : ResizeRegion := .none
  /-- The maximum size before the window was maximized, while it is. -/
  savedMaxSize : Option Size := none
  titleBarHeight : Int := 36
deriving DecidableEq, Repr

/-- A mouse event; `left` says whether it is about the left button. -/
structure MouseEvent where
  pos : Point
  globalPos : Point
  left : Bool := true
deriving DecidableEq, Repr

namespace Window

/-! ### Where the mouse is -/

def hitTest (w : Window) (pos : Point) : ResizeRegion :=
  if ¬ w.resizable ∨ w.maximized then .none
  else
    let b := kBorderWidth
    let left := if 0 ≤ pos.x ∧ pos.x < b then ResizeRegion.left else .none
    let right :=
      if w.geometry.width - b < pos.x ∧ pos.x < w.geometry.width then ResizeRegion.right else .none
    let top := if 0 ≤ pos.y ∧ pos.y < b then ResizeRegion.top else .none
    let bottom :=
      if w.geometry.height - b < pos.y ∧ pos.y < w.geometry.height then ResizeRegion.bottom
      else .none
    left ||| right ||| top ||| bottom

def isInTitleBar (w : Window) (pos : Point) : Bool :=
  if w.titleBarHeight ≤ 0 then true
  else if w.resizable ∧ ¬ w.maximized ∧ w.hitTest pos ≠ .none then false
  else 0 ≤ pos.y ∧ pos.y < w.titleBarHeight

def closeButton (w : Window) : Rect := ⟨w.geometry.width - 32 - kBtnMargin, kBtnMargin, 32, 28⟩

def maximizeButton (w : Window) : Rect :=
  ⟨w.closeButton.x - 32 - kBtnGap, kBtnMargin, 32, 28⟩

/-- The button to maximize is there only if the window can be. -/
def isOverTitleButton (w : Window) (pos : Point) : Bool :=
  w.closeButton.contains pos ∨ (w.maximizable ∧ w.maximizeButton.contains pos)

/-! ### Resizing -/

def minSize (w : Window) : Size :=
  (w.minimumSize.expandedTo w.minimumSizeHint).expandedTo ⟨kBorderWidth * 2, kBorderWidth * 2⟩

def maxSize (w : Window) : Size where
  width := if w.maximumSize.width ≤ 0 then widgetSizeMax else w.maximumSize.width
  height := if w.maximumSize.height ≤ 0 then widgetSizeMax else w.maximumSize.height

/-- `doResize` on one axis, on which the window starts at `start` and is `length` long: where it
starts and how long it is when its near or far edge has been dragged. -/
def dragAxis (near far : Bool) (start length delta : Int) : Int × Int :=
  if near then (start + delta, start + length - (start + delta))
  else if far then (start, length + delta)
  else (start, length)

/-- The length is cut to its bounds; if it is the near edge that is dragged, the far end stays. -/
def cutAxis (near : Bool) (fixedEnd lo hi x w : Int) : Int × Int :=
  if w < lo then (if near then fixedEnd - lo else x, lo)
  else if hi < w then (if near then fixedEnd - hi else x, hi)
  else (x, w)

def resizeAxis (near far : Bool) (start length delta lo hi : Int) : Int × Int :=
  let dragged := dragAxis near far start length delta
  cutAxis near (start + length) lo hi dragged.1 dragged.2

def doResize (w : Window) (globalPos : Point) : Window :=
  let delta := globalPos - w.dragGlobalPos
  let start := w.dragGeometry
  let h := resizeAxis (w.resizeRegion.includes .left) (w.resizeRegion.includes .right)
    start.x start.width delta.x w.minSize.width w.maxSize.width
  let v := resizeAxis (w.resizeRegion.includes .top) (w.resizeRegion.includes .bottom)
    start.y start.height delta.y w.minSize.height w.maxSize.height
  { w with geometry := ⟨h.1, v.1, h.2, v.2⟩ }

/-! ### Maximizing and restoring -/

/-- The maximum size is put back that was lifted to maximize. -/
def restoreMaximumSize (w : Window) : Window :=
  match w.savedMaxSize with
  | some size => { w with maximumSize := size, savedMaxSize := none }
  | none => w

/-- `toggleMaximize`, on a screen with this work area. -/
def toggleMaximize (available : Rect) (w : Window) : Window :=
  if ¬ w.maximizable then w
  else if w.maximized then
    let w := { w with maximized := false, geometry := w.baseNormalGeometry }.restoreMaximumSize
    if w.normalGeometry.isValid then { w with geometry := w.normalGeometry } else w
  else
    { w with
      normalGeometry := w.geometry
      savedMaxSize := some w.maximumSize
      maximumSize := ⟨widgetSizeMax, widgetSizeMax⟩
      maximized := true
      baseNormalGeometry := w.geometry
      geometry := available }

/-- The geometry to go back to, with one to fall back on. -/
def restoreGeometry (w : Window) : Rect :=
  let geometry := if w.normalGeometry.isValid then w.normalGeometry else w.baseNormalGeometry
  if ¬ geometry.isValid ∨ geometry.width ≤ 0 ∨ geometry.height ≤ 0 then ⟨0, 0, 800, 600⟩
  else geometry

/-- Where the window goes so that it stays inside the work area, if there is a screen. -/
def shifted (g : Rect) (p : Point) : Option Rect → Point
  | some avail =>
      ⟨qBound avail.x p.x (avail.right - g.width + 1),
        qBound avail.y p.y (avail.bottom - g.height + 1)⟩
  | none => p

section Restoring

-- `truncated restoreW x width` is the integer part of `restoreW` times the ratio of `x` to
-- `width`, which is between 0 and 1; `screenAt` gives the work area of the screen at a point
variable (truncated : Int → Int → Int → Int) (screenAt : Point → Option Rect)

/-- `truncated` in doubles. -/
def doubleOffset (restoreW x width : Int) : Int :=
  let ratio := Float.ofInt x / Float.ofInt width
  let xRatio := if ratio < 0 then 0 else if 1 < ratio then 1 else ratio
  (Float.ofInt restoreW * xRatio).toModel.toInt64.toInt

def offsetX (w : Window) (localPos : Point) : Int :=
  truncated w.restoreGeometry.width localPos.x (max w.geometry.width 1)

def restoreFromMaximizedAt (w : Window) (globalPos localPos : Point) : Window :=
  let restoreGeo := w.restoreGeometry
  let offsetX := w.offsetX truncated localPos
  let offsetY := qBound 0 localPos.y (max (w.titleBarHeight - 1) 0)
  let new := shifted restoreGeo ⟨globalPos.x - offsetX, globalPos.y - offsetY⟩ (screenAt globalPos)
  let geometry : Rect := ⟨new.x, new.y, restoreGeo.width, restoreGeo.height⟩
  { w.restoreMaximumSize with
    maximized := false
    geometry := geometry
    dragOffset := ⟨offsetX, offsetY⟩
    normalGeometry := geometry }

/-! ### Mouse events -/

/-- The title bar is pressed, if that is where the mouse is. -/
def pressTitleBar (e : MouseEvent) (w : Window) : Window :=
  if w.isInTitleBar e.pos ∧ ¬ w.isOverTitleButton e.pos then
    if w.maximized ∧ w.maximizable then
      { w.restoreFromMaximizedAt truncated screenAt e.globalPos e.pos with dragging := true }
    else if ¬ w.maximized then
      { w with dragging := true, dragOffset := e.globalPos - w.geometry.topLeft }
    else w
  else w

def mousePressEvent (e : MouseEvent) (w : Window) : Window :=
  if ¬ e.left then w
  else if w.resizable ∧ ¬ w.maximized then
    let w := { w with resizeRegion := w.hitTest e.pos }
    if w.resizeRegion ≠ .none then
      { w with resizing := true, dragGlobalPos := e.globalPos, dragGeometry := w.geometry }
    else w.pressTitleBar truncated screenAt e
  else w.pressTitleBar truncated screenAt e

end Restoring

def move (w : Window) (p : Point) : Window :=
  { w with geometry := { w.geometry with x := p.x, y := p.y } }

def mouseMoveEvent (e : MouseEvent) (w : Window) : Window :=
  if w.resizing ∧ e.left then w.doResize e.globalPos
  else if w.dragging ∧ e.left then w.move (e.globalPos - w.dragOffset)
  else w

def mouseReleaseEvent (e : MouseEvent) (w : Window) : Window :=
  if e.left ∧ (w.dragging ∨ w.resizing) then
    { w with dragging := false, resizing := false, resizeRegion := .none }
  else w

def mouseDoubleClickEvent (available : Rect) (e : MouseEvent) (w : Window) : Window :=
  if w.maximizable ∧ e.left ∧ w.isInTitleBar e.pos ∧ ¬ w.isOverTitleButton e.pos then
    w.toggleMaximize available
  else w

/-! ### Dragging an edge -/

/-- The size is within its bounds. -/
structure Fits (least most : Size) (g : Rect) : Prop where
  width_ge : least.width ≤ g.width
  width_le : g.width ≤ most.width
  height_ge : least.height ≤ g.height
  height_le : g.height ≤ most.height

/-- Only the edges of the region have moved. -/
structure Resized (region : ResizeRegion) (start g : Rect) : Prop where
  right_fixed : region.includes .left = true → g.x + g.width = start.x + start.width
  left_fixed : region.includes .left = false → g.x = start.x
  width_fixed : region.includes .left = false → region.includes .right = false →
    g.width = start.width
  bottom_fixed : region.includes .top = true → g.y + g.height = start.y + start.height
  top_fixed : region.includes .top = false → g.y = start.y
  height_fixed : region.includes .top = false → region.includes .bottom = false →
    g.height = start.height

theorem Resized.refl (region : ResizeRegion) (g : Rect) : Resized region g g :=
  ⟨fun _ => rfl, fun _ => rfl, fun _ _ => rfl, fun _ => rfl, fun _ => rfl, fun _ _ => rfl⟩

section Axis

variable {start length delta lo hi : Int} (near far : Bool)

theorem cutAxis_bounds (h : lo ≤ hi) (fixedEnd x w : Int) :
    lo ≤ (cutAxis near fixedEnd lo hi x w).2 ∧ (cutAxis near fixedEnd lo hi x w).2 ≤ hi := by
  unfold cutAxis
  split
  · exact ⟨le_rfl, h⟩
  split
  · exact ⟨h, le_rfl⟩
  · omega

/-- What is cut off a length whose far end stays is cut off at the near end. -/
theorem cutAxis_near {fixedEnd x w : Int} (h : x + w = fixedEnd) :
    (cutAxis true fixedEnd lo hi x w).1 + (cutAxis true fixedEnd lo hi x w).2 = fixedEnd := by
  simp only [cutAxis, if_true]
  split
  · omega
  split <;> omega

theorem cutAxis_far (fixedEnd x w : Int) : (cutAxis false fixedEnd lo hi x w).1 = x := by
  simp only [cutAxis, Bool.false_eq_true, if_false]
  split
  · rfl
  split <;> rfl

theorem cutAxis_inside {w : Int} (hlo : lo ≤ w) (hhi : w ≤ hi) (fixedEnd x : Int) :
    cutAxis near fixedEnd lo hi x w = (x, w) := by
  rw [cutAxis, if_neg (not_lt.mpr hlo), if_neg (not_lt.mpr hhi)]

theorem resizeAxis_bounds (h : lo ≤ hi) :
    lo ≤ (resizeAxis near far start length delta lo hi).2 ∧
      (resizeAxis near far start length delta lo hi).2 ≤ hi :=
  cutAxis_bounds near h _ _ _

theorem resizeAxis_near : (resizeAxis true far start length delta lo hi).1 +
    (resizeAxis true far start length delta lo hi).2 = start + length := by
  have hend : (dragAxis true far start length delta).1 + (dragAxis true far start length delta).2
      = start + length := by
    simp only [dragAxis, if_true]
    omega
  exact cutAxis_near hend

theorem resizeAxis_far : (resizeAxis false far start length delta lo hi).1 = start := by
  rw [resizeAxis, cutAxis_far]
  cases far with
  | true => rfl
  | false => rfl

theorem resizeAxis_neither (hlo : lo ≤ length) (hhi : length ≤ hi) :
    (resizeAxis false false start length delta lo hi).2 = length := by
  have hdrag : dragAxis false false start length delta = (start, length) := rfl
  rw [resizeAxis, hdrag, cutAxis_inside false hlo hhi]

end Axis

variable {w : Window}

theorem doResize_fits (h : Fits w.minSize w.maxSize w.dragGeometry) (globalPos : Point) :
    Fits w.minSize w.maxSize (w.doResize globalPos).geometry := by
  obtain ⟨hwidth, hwidth'⟩ := resizeAxis_bounds (w.resizeRegion.includes .left)
    (w.resizeRegion.includes .right) (le_trans h.width_ge h.width_le)
  obtain ⟨hheight, hheight'⟩ := resizeAxis_bounds (w.resizeRegion.includes .top)
    (w.resizeRegion.includes .bottom) (le_trans h.height_ge h.height_le)
  exact ⟨hwidth, hwidth', hheight, hheight'⟩

theorem doResize_resized (h : Fits w.minSize w.maxSize w.dragGeometry) (globalPos : Point) :
    Resized w.resizeRegion w.dragGeometry (w.doResize globalPos).geometry := by
  refine ⟨?_, ?_, ?_, ?_, ?_, ?_⟩
  · intro hleft
    simp only [doResize, hleft]
    exact resizeAxis_near _
  · intro hleft
    simp only [doResize, hleft]
    exact resizeAxis_far _
  · intro hleft hright
    simp only [doResize, hleft, hright]
    exact resizeAxis_neither h.width_ge h.width_le
  · intro htop
    simp only [doResize, htop]
    exact resizeAxis_near _
  · intro htop
    simp only [doResize, htop]
    exact resizeAxis_far _
  · intro htop hbottom
    simp only [doResize, htop, hbottom]
    exact resizeAxis_neither h.height_ge h.height_le

/-- **Dragging an edge leaves the opposite one where it is**, for every region and every way the
mouse has gone. -/
theorem doResize_keeps (w : Window) (h : Fits w.minSize w.maxSize w.dragGeometry)
    (globalPos : Point) :
    Fits w.minSize w.maxSize (w.doResize globalPos).geometry ∧
      Resized w.resizeRegion w.dragGeometry (w.doResize globalPos).geometry :=
  ⟨doResize_fits h globalPos, doResize_resized h globalPos⟩

/-- The upper left corner of a window is dragged far to the lower right. -/
def sampleResize : Window where
  geometry := ⟨100, 100, 800, 600⟩
  minimumSize := ⟨400, 300⟩
  resizing := true
  dragGlobalPos := ⟨102, 103⟩
  dragGeometry := ⟨100, 100, 800, 600⟩
  resizeRegion := .top ||| .left

theorem doResize_keeps_sample :
    Fits sampleResize.minSize sampleResize.maxSize (sampleResize.doResize ⟨1500, 900⟩).geometry ∧
      Resized sampleResize.resizeRegion sampleResize.dragGeometry
        (sampleResize.doResize ⟨1500, 900⟩).geometry :=
  doResize_keeps sampleResize ⟨by decide, by decide, by decide, by decide⟩ ⟨1500, 900⟩

/-! ### The mouse, in any order -/

section Mouse

variable (truncated : Int → Int → Int → Int) (screenAt : Point → Option Rect)

inductive MouseAction where
  | press (e : MouseEvent)
  | move (e : MouseEvent)
  | release (e : MouseEvent)
  | doubleClick (available : Rect) (e : MouseEvent)
  /-- The button to maximize is clicked. -/
  | maximizeClicked (available : Rect)
deriving DecidableEq, Repr

def step (w : Window) : MouseAction → Option Window
  | .press e => some (w.mousePressEvent truncated screenAt e)
  | .move e => some (w.mouseMoveEvent e)
  | .release e => some (w.mouseReleaseEvent e)
  | .doubleClick available e => some (w.mouseDoubleClickEvent available e)
  | .maximizeClicked available => some (w.toggleMaximize available)

/-- The left button goes down only while it is up. -/
def Apart (w : Window) : MouseAction → Prop
  | .press e => e.left = true → w.dragging = false ∧ w.resizing = false
  | .doubleClick _ _ | .maximizeClicked _ => w.dragging = false ∧ w.resizing = false
  | .move _ | .release _ => True

instance (w : Window) : DecidablePred w.Apart
  | .press e => inferInstanceAs (Decidable (e.left = true → _))
  | .doubleClick _ _ | .maximizeClicked _ =>
      inferInstanceAs (Decidable (w.dragging = false ∧ w.resizing = false))
  | .move _ | .release _ => isTrue trivial

/-- What the mouse leaves of a window that was `start`: its bounds are put back once it is no
longer maximized, it is within them, and an edge that is held leaves the opposite one. -/
structure Sized (start w : Window) : Prop where
  least : w.minSize = start.minSize
  normal : w.maximized = false →
    w.maximumSize = start.maximumSize ∧ Fits start.minSize start.maxSize w.geometry
  maximized : w.maximized = true →
    w.savedMaxSize = some start.maximumSize ∧ Fits start.minSize start.maxSize w.normalGeometry ∧
      w.resizing = false ∧ w.dragging = false
  held : w.resizing = true →
    Fits start.minSize start.maxSize w.dragGeometry ∧
      Resized w.resizeRegion w.dragGeometry w.geometry

theorem maxSize_of_eq {w w' : Window} (h : w.maximumSize = w'.maximumSize) :
    w.maxSize = w'.maxSize := by
  rw [maxSize, maxSize, h]

/-- A window has its borders at least. -/
theorem Fits.isValid {g : Rect} (h : Fits w.minSize w.maxSize g) : g.isValid = true := by
  have hwidth : kBorderWidth * 2 ≤ w.minSize.width := le_max_right _ _
  have hheight : kBorderWidth * 2 ≤ w.minSize.height := le_max_right _ _
  have hborder : (0 : Int) < kBorderWidth * 2 := by decide
  have hwidth' := h.width_ge
  have hheight' := h.height_ge
  rw [Rect.isValid, decide_eq_true_eq]
  omega

theorem restoreGeometry_of_valid (h : w.normalGeometry.isValid = true) :
    w.restoreGeometry = w.normalGeometry := by
  have hpos : 0 < w.normalGeometry.width ∧ 0 < w.normalGeometry.height := by
    simpa [Rect.isValid] using h
  have hnot : ¬ (¬ w.normalGeometry.isValid = true ∨ w.normalGeometry.width ≤ 0 ∨
      w.normalGeometry.height ≤ 0) := by
    simp only [h, not_true_eq_false, false_or]
    omega
  simp only [restoreGeometry, if_pos h]
  exact if_neg hnot

namespace Sized

variable {start : Window}

/-- Nothing is held, and something else begins. -/
theorem idle (h : Sized start w) (hidle : w.resizing = false) (region : ResizeRegion) :
    Sized start { w with resizeRegion := region } :=
  ⟨h.least, h.normal, h.maximized, fun hheld => by simp [hidle] at hheld⟩

theorem restored (h : Sized start w) (hmax : w.maximized = true) (globalPos localPos : Point) :
    Sized start { w.restoreFromMaximizedAt truncated screenAt globalPos localPos with
      dragging := true } := by
  obtain ⟨hsaved, hfits, hresizing, -⟩ := h.maximized hmax
  have hgeometry := restoreGeometry_of_valid hfits.isValid
  have hput : w.restoreMaximumSize
      = { w with maximumSize := start.maximumSize, savedMaxSize := none } := by
    rw [restoreMaximumSize, hsaved]
  simp only [restoreFromMaximizedAt, hput, hgeometry]
  refine ⟨h.least, fun _ => ⟨rfl, ?_⟩, fun hstill => by simp at hstill, fun hheld => ?_⟩
  · exact ⟨hfits.width_ge, hfits.width_le, hfits.height_ge, hfits.height_le⟩
  · have hheld : w.resizing = true := hheld
    simp [hresizing] at hheld

theorem pressTitleBar (h : Sized start w) (hidle : w.resizing = false) (e : MouseEvent) :
    Sized start (w.pressTitleBar truncated screenAt e) := by
  unfold Window.pressTitleBar
  split
  · split
    · rename_i hmax
      exact h.restored truncated screenAt hmax.1 e.globalPos e.pos
    split
    · rename_i hnormal
      exact ⟨h.least, h.normal, fun hmax => absurd hmax hnormal,
        fun hheld => by simp [hidle] at hheld⟩
    · exact h
  · exact h

theorem press (h : Sized start w) {e : MouseEvent} (hapart : w.Apart (.press e)) :
    Sized start (w.mousePressEvent truncated screenAt e) := by
  unfold mousePressEvent
  split
  · exact h
  rename_i hleft
  obtain ⟨-, hidle⟩ := hapart (not_not.mp hleft)
  split
  · rename_i hnormal
    obtain ⟨hsize, hfits⟩ := h.normal (by simpa using hnormal.2)
    simp only []
    split
    · exact ⟨h.least, fun _ => ⟨hsize, hfits⟩, fun hmax => absurd hmax hnormal.2,
        fun _ => ⟨hfits, Resized.refl _ _⟩⟩
    · exact (h.idle hidle (w.hitTest e.pos)).pressTitleBar truncated screenAt hidle e
  · exact h.pressTitleBar truncated screenAt hidle e

/-- An edge is drawn from where the window was when it was pressed. -/
theorem move (h : Sized start w) (e : MouseEvent) : Sized start (w.mouseMoveEvent e) := by
  unfold mouseMoveEvent
  split
  · rename_i hboth
    have hnormal : w.maximized = false := by
      by_contra hmax
      have hresizing := (h.maximized (by simpa using hmax)).2.2.1
      simp [hresizing] at hboth
    obtain ⟨hsize, -⟩ := h.normal hnormal
    obtain ⟨hfits, -⟩ := h.held hboth.1
    have hbefore : Fits w.minSize w.maxSize w.dragGeometry := by
      rw [h.least, maxSize_of_eq hsize]
      exact hfits
    have hafter := doResize_fits hbefore e.globalPos
    rw [h.least, maxSize_of_eq hsize] at hafter
    refine ⟨h.least, fun _ => ⟨hsize, hafter⟩, fun hmax => ?_,
      fun _ => ⟨hfits, doResize_resized hbefore e.globalPos⟩⟩
    exact absurd (hnormal.symm.trans hmax) Bool.false_ne_true
  split
  · rename_i hnot hboth
    refine ⟨h.least, fun hnormal => ?_, fun hmax => ?_, fun hheld => ?_⟩
    · obtain ⟨hsize, hfits⟩ := h.normal hnormal
      exact ⟨hsize, hfits.width_ge, hfits.width_le, hfits.height_ge, hfits.height_le⟩
    · have hdragging := (h.maximized hmax).2.2.2
      simp [hdragging] at hboth
    · exact absurd ⟨hheld, hboth.2⟩ hnot
  · exact h

theorem release (h : Sized start w) (e : MouseEvent) : Sized start (w.mouseReleaseEvent e) := by
  unfold mouseReleaseEvent
  split
  · refine ⟨h.least, h.normal, fun hmax => ?_, fun hheld => by simp at hheld⟩
    obtain ⟨hsaved, hfits, -, -⟩ := h.maximized hmax
    exact ⟨hsaved, hfits, rfl, rfl⟩
  · exact h

theorem toggle (h : Sized start w) (hidle : w.dragging = false ∧ w.resizing = false)
    (available : Rect) : Sized start (w.toggleMaximize available) := by
  unfold toggleMaximize
  split
  · exact h
  split
  · rename_i hmax
    obtain ⟨hsaved, hfits, -, -⟩ := h.maximized hmax
    simp only [restoreMaximumSize, hsaved, if_pos hfits.isValid]
    exact ⟨h.least, fun _ => ⟨rfl, hfits⟩, fun hstill => by simp at hstill,
      fun hheld => by simp [hidle.2] at hheld⟩
  · rename_i hnormal
    obtain ⟨hsize, hfits⟩ := h.normal (by simpa using hnormal)
    exact ⟨h.least, fun hstill => by simp at hstill,
      fun _ => ⟨congrArg some hsize, hfits, hidle.2, hidle.1⟩,
      fun hheld => by simp [hidle.2] at hheld⟩

end Sized

theorem Sized.step {start w' : Window} (h : Sized start w) {action : MouseAction}
    (hapart : w.Apart action) (hstep : w.step truncated screenAt action = some w') :
    Sized start w' := by
  cases action with
  | press e => exact Option.some.inj hstep ▸ h.press truncated screenAt hapart
  | move e => exact Option.some.inj hstep ▸ h.move e
  | release e => exact Option.some.inj hstep ▸ h.release e
  | doubleClick available e =>
      rw [← Option.some.inj hstep, mouseDoubleClickEvent]
      split
      · exact h.toggle hapart available
      · exact h
  | maximizeClicked available => exact Option.some.inj hstep ▸ h.toggle hapart available

end Mouse

def sampleArea : Rect := ⟨0, 0, 1920, 1040⟩

def sampleStart : Window where
  geometry := ⟨100, 100, 800, 600⟩
  minimumSize := ⟨400, 300⟩
  maximumSize := ⟨1000, 800⟩

/-- The mouse holds the window by the offset, so going nowhere moves it nowhere. -/
structure Steady (w : Window) (globalPos : Point) : Prop where
  held : w.geometry.topLeft = globalPos - w.dragOffset
  still : w.resizing = false → ∀ e : MouseEvent, e.globalPos = globalPos →
    (w.mouseMoveEvent e).geometry = w.geometry

/-- A window that is dragged is steady once it is held by the offset. -/
theorem steady_of_held {globalPos : Point} (hdragging : w.dragging = true)
    (h : w.geometry.topLeft = globalPos - w.dragOffset) : w.Steady globalPos := by
  refine ⟨h, fun hresizing e he => ?_⟩
  have hnot : ¬ (w.resizing = true ∧ e.left = true) := by simp [hresizing]
  rw [mouseMoveEvent, if_neg hnot]
  by_cases hleft : e.left = true
  · rw [if_pos ⟨hdragging, hleft⟩, he, ← h]
    rfl
  · rw [if_neg fun hboth => hleft hboth.2]

section Restored

variable (truncated : Int → Int → Int → Int) (screenAt : Point → Option Rect)

/-- Where the mouse is to hold the restored window. -/
def grip (w : Window) (localPos : Point) : Point :=
  ⟨w.offsetX truncated localPos, if w.titleBarHeight ≤ 0 then 0 else localPos.y⟩

/-- A window of this size, with its upper left corner there, is inside the work area. -/
structure Inside (avail : Rect) (corner : Point) (g : Rect) : Prop where
  left : avail.x ≤ corner.x
  right : corner.x + g.width ≤ avail.x + avail.width
  top : avail.y ≤ corner.y
  bottom : corner.y + g.height ≤ avail.y + avail.height

variable {truncated screenAt}

theorem dragOffset_restored {localPos : Point} (hbar : w.isInTitleBar localPos = true)
    (globalPos : Point) :
    (w.restoreFromMaximizedAt truncated screenAt globalPos localPos).dragOffset
      = w.grip truncated localPos := by
  have hoffset : qBound 0 localPos.y (max (w.titleBarHeight - 1) 0)
      = if w.titleBarHeight ≤ 0 then 0 else localPos.y := by
    unfold isInTitleBar at hbar
    by_cases hzero : w.titleBarHeight ≤ 0
    · rw [if_pos hzero, qBound]
      omega
    · rw [if_neg hzero] at hbar ⊢
      split at hbar
      · simp at hbar
      · rw [decide_eq_true_eq] at hbar
        rw [qBound_eq_iff (by omega)]
        omega
  rw [grip, ← hoffset]
  rfl

/-- A window that there is room for is shifted unless it is inside the work area already. -/
theorem shifted_eq_iff {g avail : Rect} (hwidth : g.width ≤ avail.width)
    (hheight : g.height ≤ avail.height) (p : Point) :
    shifted g p (some avail) = p ↔ Inside avail p g := by
  have hx := qBound_eq_iff (show avail.x ≤ avail.right - g.width + 1 by
    simp only [Rect.right]; omega) p.x
  have hy := qBound_eq_iff (show avail.y ≤ avail.bottom - g.height + 1 by
    simp only [Rect.bottom]; omega) p.y
  simp only [Rect.right] at hx
  simp only [Rect.bottom] at hy
  constructor
  · intro hsame
    have hsamex := hx.mp (congrArg Point.x hsame)
    have hsamey := hy.mp (congrArg Point.y hsame)
    exact ⟨hsamex.1, by omega, hsamey.1, by omega⟩
  · intro h
    have hleft := h.left
    have hright := h.right
    have htop := h.top
    have hbottom := h.bottom
    have hsamex := hx.mpr ⟨hleft, by omega⟩
    have hsamey := hy.mpr ⟨htop, by omega⟩
    simp only [shifted, Rect.right, Rect.bottom, hsamex, hsamey]

/-- On a screen with room for it, a window is held by the offset unless it had to be shifted. -/
theorem held_iff {globalPos localPos : Point} (hsaved : w.normalGeometry.isValid = true)
    (hbar : w.isInTitleBar localPos = true)
    (hroom : ∀ avail, screenAt globalPos = some avail →
      w.normalGeometry.width ≤ avail.width ∧ w.normalGeometry.height ≤ avail.height) :
    (w.restoreFromMaximizedAt truncated screenAt globalPos localPos).geometry.topLeft
        = globalPos - (w.restoreFromMaximizedAt truncated screenAt globalPos localPos).dragOffset ↔
      ∀ avail, screenAt globalPos = some avail →
        Inside avail (globalPos - w.grip truncated localPos) w.normalGeometry := by
  have hoffset : (w.restoreFromMaximizedAt truncated screenAt globalPos localPos).dragOffset
      = w.grip truncated localPos := dragOffset_restored hbar globalPos
  have hcorner : (w.restoreFromMaximizedAt truncated screenAt globalPos localPos).geometry.topLeft
      = shifted w.normalGeometry (globalPos - w.grip truncated localPos) (screenAt globalPos) := by
    rw [← hoffset, ← restoreGeometry_of_valid hsaved]
    rfl
  rw [hcorner, hoffset]
  cases hscreen : screenAt globalPos with
  | none => simp [shifted]
  | some avail =>
      obtain ⟨hwidth, hheight⟩ := hroom avail hscreen
      rw [shifted_eq_iff hwidth hheight]
      simp

/-- **When a maximized window that is dragged off does not jump**: when it would be inside the
work area where the mouse holds it. -/
theorem steady_iff (truncated : Int → Int → Int → Int) (screenAt : Point → Option Rect)
    (w : Window) (globalPos localPos : Point) (hsaved : w.normalGeometry.isValid = true)
    (hbar : w.isInTitleBar localPos = true)
    (hroom : ∀ avail, screenAt globalPos = some avail →
      w.normalGeometry.width ≤ avail.width ∧ w.normalGeometry.height ≤ avail.height) :
    Steady { w.restoreFromMaximizedAt truncated screenAt globalPos localPos with dragging := true }
        globalPos ↔
      ∀ avail, screenAt globalPos = some avail →
        Inside avail (globalPos - w.grip truncated localPos) w.normalGeometry := by
  rw [← held_iff hsaved hbar hroom]
  constructor
  · exact Steady.held
  · intro hheld
    exact steady_of_held rfl hheld

end Restored

/-! ### A jump, and why it is rarely seen -/

/-- A window that can be dragged anywhere, maximized. -/
def sampleMaximized : Window where
  geometry := sampleArea
  maximized := true
  normalGeometry := ⟨200, 100, 800, 600⟩
  titleBarHeight := 0

theorem steady_iff_sample :
    Steady { sampleMaximized.restoreFromMaximizedAt doubleOffset (fun _ => some sampleArea)
        ⟨960, 300⟩ ⟨960, 300⟩ with dragging := true } ⟨960, 300⟩ ↔
      ∀ avail, some sampleArea = some avail →
        Inside avail (⟨960, 300⟩ - sampleMaximized.grip doubleOffset ⟨960, 300⟩)
          sampleMaximized.normalGeometry :=
  steady_iff doubleOffset (fun _ => some sampleArea) sampleMaximized ⟨960, 300⟩ ⟨960, 300⟩
    (by decide) (by decide) (by simp [sampleMaximized, sampleArea])

/-- A window that was as wide as the work area, maximized. -/
def sampleWide : Window where
  geometry := sampleArea
  maximized := true
  normalGeometry := ⟨0, 100, 1920, 600⟩
  titleBarHeight := 42

/-- **A window as wide as the work area jumps**: 1920 times 123/1920 is a little less than 123 in
doubles, so that the window has to be shifted back by one, and the offset is not. -/
theorem jump :
    let r := sampleWide.restoreFromMaximizedAt doubleOffset (fun _ => some sampleArea) ⟨123, 20⟩
      ⟨123, 20⟩
    r.geometry = ⟨0, 0, 1920, 600⟩ ∧ r.dragOffset = ⟨122, 20⟩ ∧
      sampleWide.isInTitleBar ⟨123, 20⟩ = true ∧
      ¬ Steady { r with dragging := true } ⟨123, 20⟩ := by
  refine ⟨by decide +kernel, by decide +kernel, by decide, fun hsteady => ?_⟩
  exact absurd hsteady.held (by decide +kernel)

/-- The integer part of the exact product, or one less where the product is whole and has been
rounded down. -/
def NearlyExact (truncated : Int → Int → Int → Int) : Prop :=
  ∀ restoreW x width, 0 ≤ restoreW → restoreW ≤ width → 0 ≤ x → x < width →
    width ≤ widgetSizeMax →
      truncated restoreW x width = restoreW * x / width ∨
        width ∣ restoreW * x ∧ truncated restoreW x width = restoreW * x / width - 1

/-- Measured from either side, the place in the same ratio is no further in than in a wider window,
rounded down or not. -/
theorem truncated_bounds {truncated : Int → Int → Int → Int} (hnearly : NearlyExact truncated)
    {restoreW x width : Int} (hpos : 0 ≤ restoreW) (hlt : restoreW < width) (hx : 0 ≤ x)
    (hx' : x < width) (hmost : width ≤ widgetSizeMax) :
    truncated restoreW x width ≤ x ∧ x + restoreW - width ≤ truncated restoreW x width := by
  have hwidth : 0 < width := lt_of_le_of_lt hx hx'
  have hupper : restoreW * x / width ≤ x := by
    refine Int.ediv_le_of_le_mul hwidth ?_
    rw [mul_comm x]
    exact mul_le_mul_of_nonneg_right hlt.le hx
  have hproduct : 0 < (width - restoreW) * (width - x) := mul_pos (by omega) (by omega)
  rcases hnearly restoreW x width hpos hlt.le hx hx' hmost with hexact | ⟨hwhole, hless⟩
  · rw [hexact]
    refine ⟨hupper, (Int.le_ediv_iff_mul_le hwidth).mpr ?_⟩
    nlinarith
  · rw [hless]
    refine ⟨by omega, ?_⟩
    -- a whole product is larger than the bound by one at least
    obtain ⟨place, hplace⟩ := hwhole
    rw [hplace, Int.mul_ediv_cancel_left place (by omega)]
    have hbelow : width * (x + restoreW - width) < width * place := by
      rw [← hplace]
      nlinarith
    have hbound := lt_of_mul_lt_mul_left hbelow hwidth.le
    omega

theorem toggleMaximize_normal (available : Rect) (hmax : w.maximizable = true)
    (hnormal : w.maximized = false) : w.toggleMaximize available =
      { w with
        normalGeometry := w.geometry
        savedMaxSize := some w.maximumSize
        maximumSize := ⟨widgetSizeMax, widgetSizeMax⟩
        maximized := true
        baseNormalGeometry := w.geometry
        geometry := available } := by
  rw [toggleMaximize, if_neg (not_not.mpr hmax), if_neg (by simp [hnormal])]

/-- Where the mouse is to hold a window that was maximized over the work area. -/
theorem grip_maximized {truncated : Int → Int → Int → Int} {available : Rect} {localPos : Point}
    (hmax : w.maximizable = true) (hnormal : w.maximized = false) (hheight : 0 < w.titleBarHeight)
    (hvalid : w.geometry.isValid = true) (hpos : 0 < available.width) :
    (w.toggleMaximize available).grip truncated localPos
      = ⟨truncated w.geometry.width localPos.x available.width, localPos.y⟩ := by
  rw [toggleMaximize_normal available hmax hnormal]
  have hgeometry := restoreGeometry_of_valid (w :=
    { w with
      normalGeometry := w.geometry
      savedMaxSize := some w.maximumSize
      maximumSize := ⟨widgetSizeMax, widgetSizeMax⟩
      maximized := true
      baseNormalGeometry := w.geometry
      geometry := available }) hvalid
  have hone : max available.width 1 = available.width := max_eq_left (by omega)
  rw [grip, offsetX, hgeometry, hone, if_neg (not_le.mpr hheight)]

/-- A window narrower than the work area, maximized over it and dragged off by its title bar, is
held there. -/
theorem held_of_maximized {truncated : Int → Int → Int → Int} (hnearly : NearlyExact truncated)
    {screenAt : Point → Option Rect} {available : Rect} {localPos : Point}
    (hnormal : w.maximized = false) (hmax : w.maximizable = true) (hheight : 0 < w.titleBarHeight)
    (hvalid : w.geometry.isValid = true) (hroom : w.geometry.width < available.width ∧
      w.geometry.height ≤ available.height) (hmost : available.width ≤ widgetSizeMax)
    (hx : 0 ≤ localPos.x ∧ localPos.x < available.width)
    (hy : 0 ≤ localPos.y ∧ localPos.y < w.titleBarHeight)
    (hscreen : screenAt ⟨available.x + localPos.x, available.y + localPos.y⟩ = some available) :
    let r := (w.toggleMaximize available).restoreFromMaximizedAt truncated screenAt
      ⟨available.x + localPos.x, available.y + localPos.y⟩ localPos
    r.geometry.topLeft = ⟨available.x + localPos.x, available.y + localPos.y⟩ - r.dragOffset := by
  have hlarge := toggleMaximize_normal available hmax hnormal
  have hbar : (w.toggleMaximize available).isInTitleBar localPos = true := by
    rw [hlarge]
    simp [isInTitleBar, not_le.mpr hheight, hy]
  have hsaved : (w.toggleMaximize available).normalGeometry = w.geometry := by rw [hlarge]
  refine (held_iff (hsaved ▸ hvalid) hbar fun avail havail => ?_).mpr fun avail havail => ?_
  · rw [hscreen, Option.some.injEq] at havail
    rw [hsaved, ← havail]
    exact ⟨hroom.1.le, hroom.2⟩
  rw [hscreen, Option.some.injEq] at havail
  subst havail
  have hwidth : 0 < w.geometry.width := by
    simp only [Rect.isValid, decide_eq_true_eq] at hvalid
    exact hvalid.1
  obtain ⟨hleft, hright⟩ := truncated_bounds hnearly hwidth.le hroom.1 hx.1 hx.2 hmost
  have hheights := hroom.2
  rw [grip_maximized hmax hnormal hheight hvalid (by omega), hsaved]
  refine ⟨?_, ?_, ?_, ?_⟩
  · simp only [Point.sub_x]
    omega
  · simp only [Point.sub_x]
    omega
  · simp only [Point.sub_y]
    omega
  · simp only [Point.sub_y]
    omega

end Window

end CloudMeeting.Client.FramelessWindow
