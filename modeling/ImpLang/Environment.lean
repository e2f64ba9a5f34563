import Std.Data.ExtTreeMap

/-! The variables of a run. A name that is not bound reads as 0; reading binds nothing. `bindings` lists the
bound names in the order of their code points, so that equal environments show the same list. -/

namespace ImpLang

structure Environment where
  map : Std.ExtTreeMap String Int64 compare := ∅

namespace Environment

def get (e : Environment) (x : String) : Int64 := e.map.getD x 0

def set (e : Environment) (x : String) (v : Int64) : Environment := ⟨e.map.insert x v⟩

def contains (e : Environment) (x : String) : Bool := e.map.contains x

def size (e : Environment) : Nat := e.map.size

def isEmpty (e : Environment) : Bool := e.map.isEmpty

def bindings (e : Environment) : List (String × Int64) := e.map.toList

/-- Carries out writes in order; the last one to a name stands. -/
def setAll (e : Environment) (writes : List (String × Int64)) : Environment :=
  writes.foldl (fun e w => e.set w.1 w.2) e

def ofList (bs : List (String × Int64)) : Environment := setAll {} bs

theorem setAll_append (e : Environment) (ws vs : List (String × Int64)) :
    e.setAll (ws ++ vs) = (e.setAll ws).setAll vs := List.foldl_append

theorem get_set (e : Environment) (x y : String) (v : Int64) :
    (e.set x v).get y = if x = y then v else e.get y := by
  simp [get, set, Std.ExtTreeMap.getD_insert]

theorem contains_set (e : Environment) (x y : String) (v : Int64) :
    (e.set x v).contains y = (x == y || e.contains y) := by
  simp [contains, set, Std.ExtTreeMap.contains_insert, Bool.beq_eq_decide_eq]

/-- Environments that bind the same names to the same values are equal. -/
theorem ext_get {e f : Environment} (hc : ∀ x, e.contains x = f.contains x)
    (hg : ∀ x, e.get x = f.get x) : e = f := by
  obtain ⟨m⟩ := e
  obtain ⟨m'⟩ := f
  simp only [contains, get] at hc hg
  congr 1
  apply Std.ExtTreeMap.ext_getElem?
  intro x
  have hx := hc x
  have gx := hg x
  simp only [Std.ExtTreeMap.getD_eq_getD_getElem?, Std.ExtTreeMap.contains_eq_isSome_getElem?] at hx gx
  cases h : m[x]? <;> cases h' : m'[x]? <;> simp_all

theorem bindings_inj {e f : Environment} : e.bindings = f.bindings ↔ e = f := by
  obtain ⟨m⟩ := e
  obtain ⟨m'⟩ := f
  simp [bindings, Std.ExtTreeMap.toList_inj]

instance : DecidableEq Environment := fun _ _ => decidable_of_iff _ bindings_inj

end Environment
end ImpLang
