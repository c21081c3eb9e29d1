namespace LedSketch

/-!
# Color orders

The channel order a physical strip expects.  It is kept with the strip and
never changes what is shown.
-/

/-- The channel order of a physical strip. -/
inductive ColorOrder where
  | rgb
  | grb
  | rgbw
  | brg
  | gbr
  | bgr
  deriving Repr, DecidableEq

namespace ColorOrder

/-- Every color order. -/
def all : List ColorOrder := [.rgb, .grb, .rgbw, .brg, .gbr, .bgr]

/-- The name a sketch writes for a color order. -/
def name : ColorOrder → String
  | .rgb => "RGB"
  | .grb => "GRB"
  | .rgbw => "RGBW"
  | .brg => "BRG"
  | .gbr => "GBR"
  | .bgr => "BGR"

/-- The color order of a name. -/
def ofName? (name : String) : Option ColorOrder :=
  all.find? fun order => order.name = name

/-- A color order is found again by its name. -/
theorem ofName?_name (order : ColorOrder) : ofName? order.name = some order := by
  cases order <;> decide

end ColorOrder

end LedSketch
