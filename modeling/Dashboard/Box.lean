import Dashboard.Category

/-!
# Boxes and the layout of the screen

A layout says whether the screen has a header, how many lines of the error log it shows and which boxes it
holds, in order.
-/

namespace Dashboard

/-- A box of the screen: its category and the options it shows it with. -/
structure Box where
  category : Category
  options : OptionSet
deriving DecidableEq, Repr

namespace Box

/-- The box of a category with the given options. Without any option it has those of a new box, of whatever
family the empty set was. -/
def ofOptions (c : Category) (s : OptionSet) : Box :=
  ⟨c, if s.bits = 0 then c.emptyOptions else s⟩

/-- Boxes show the same if they agree in category and bits; the family the bits were chosen from does not
count. -/
def same (a b : Box) : Bool := a.category == b.category && a.options.bits == b.options.bits

end Box

structure Layout where
  header : Bool := false
  /-- Lines of the error log; with 0 it is not shown. -/
  errlog : Int := 0
  boxes : List Box := []
deriving DecidableEq, Repr

namespace Layout

def addBox (l : Layout) (b : Box) : Layout := { l with boxes := l.boxes ++ [b] }

/-- Layouts are the same if they agree field by field, their boxes by `Box.same`. -/
def same (a b : Layout) : Bool :=
  a.header == b.header && a.errlog == b.errlog && a.boxes.length == b.boxes.length &&
    (a.boxes.zip b.boxes).all fun (x, y) => x.same y

end Layout

end Dashboard
