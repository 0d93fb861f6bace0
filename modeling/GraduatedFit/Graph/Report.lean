import GraduatedFit.Graph
import GraduatedFit.LeastSquares.Report

/-!
Texts of noise models and factors.
-/

namespace GraduatedFit

open Text

/-- The storage of a matrix: its entries column by column, and its shape. -/
def storageText (entries : List Float) (rows columns : String) : String :=
  record "VecStorage" [("data", bracketed (entries.map debug)), ("nrows", rows), ("ncols", columns)]

def dynamicText (n : Nat) : String := s!"Dyn({n})"

def Loss.text (loss : Loss Float) : String :=
  record loss.title (loss.parameters.map fun (name, value) => (name, debug value))

def Noise.text : Noise Float → String
  | .gaussian R =>
    record "Gaussian"
      [("sqrt_information", storageText R.columns.flatten (dynamicText R.height) (dynamicText R.width))]
  | .diagonal sigmas =>
    record "Diagonal" [("sigmas", storageText sigmas (dynamicText sigmas.length) "Const")]
  | .isotropic dim sigma => record "Isotropic" [("dim", toString dim), ("sigma", debug sigma)]
  | .unit dim => record "Unit" [("dim", toString dim)]
  | .robust loss base => record "Robust" [("loss", loss.value.text), ("base", base.text)]

def GraphFactor.text (f : GraphFactor Float) : String :=
  record "GraphFactor"
    [("keys", quoteAll f.keys), ("dim", toString f.factor.value.dim), ("noise", f.noise.text)]

end GraduatedFit
