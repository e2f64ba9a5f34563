import ImpLang.Program.Run
import ImpLang.Proofs.Program.Course
import ImpLang.Proofs.Text.Utf8
import Mathlib.Data.List.Induction

/-! The bindings of an environment are its canonical form. However its entries are listed, sorting
them by name leads to the bindings; and nothing of how the environment came about bears on them but
the last assignment to each name. -/

namespace ImpLang
namespace Environment

/-- The environments that come about, each with the assignments that led to it, in order: those of
the list that it was made from, those made one at a time, and those of the programs that were run in
it, to their end or to a fault. -/
inductive Arises : Environment → List (String × Int64) → Prop
  | ofList (bs : List (String × Int64)) : Arises (ofList bs) bs
  | set {e : Environment} {ws : List (String × Int64)} (before : Arises e ws) (x : String)
      (v : Int64) : Arises (e.set x v) (ws ++ [(x, v)])
  | run {e : Environment} {ws : List (String × Int64)} (before : Arises e ws) {n : Nat}
      {s : Statement} {h : Halt} (ended : s.exec n e = some h) :
      Arises h.environment (ws ++ (s.course n e).writes)

/-- The value of the last of the assignments to the name. -/
def lastWrite? (ws : List (String × Int64)) (x : String) : Option Int64 := ws.reverse.lookup x

/-- The list holds the entries of the environment, each once, in whatever order. -/
structure Lists (e : Environment) (es : List (String × Int64)) : Prop where
  once : es.Nodup
  mem_iff : ∀ x v, (x, v) ∈ es ↔ e.contains x = true ∧ e.get x = v

variable {e f : Environment} {ws vs es us : List (String × Int64)} {x y : String} {v w : Int64}

theorem mem_bindings : (x, v) ∈ e.bindings ↔ e.contains x = true ∧ e.get x = v := by
  simp only [bindings, Std.ExtTreeMap.mem_toList_iff_getElem?_eq_some, contains, get,
    Std.ExtTreeMap.contains_eq_isSome_getElem?, Std.ExtTreeMap.getD_eq_getD_getElem?]
  cases e.map[x]? <;> simp

theorem bindings_ordered (e : Environment) : e.bindings.Pairwise fun a b => a.1 < b.1 :=
  e.map.ordered_keys_toList.imp fun h => compareOfLessAndEq_eq_lt.1 h

theorem lists_bindings (e : Environment) : e.Lists e.bindings := by
  refine ⟨?_, fun x v => mem_bindings⟩
  apply e.bindings_ordered.imp
  intro a b h heq
  exact lt_irrefl _ (heq ▸ h)

theorem Lists.perm (h : e.Lists es) (h' : e.Lists us) : es.Perm us := by
  apply (List.perm_ext_iff_of_nodup h.once h'.once).2
  intro a
  rw [h.mem_iff a.1 a.2, h'.mem_iff a.1 a.2]

/-- However the entries are sorted by name, they come out as the bindings. -/
theorem Lists.sorted (h : e.Lists es) (hp : us.Perm es)
    (hs : us.Pairwise fun a b => ¬ b.1 < a.1) : us = e.bindings := by
  have hb : e.bindings.Pairwise fun a b => ¬ b.1 < a.1 := e.bindings_ordered.imp lt_asymm
  refine List.Perm.eq_of_pairwise ?_ hs hb (hp.trans (h.perm e.lists_bindings))
  -- entries in neither order have the same name, so they are the same entry
  intro a b ha hb hab hba
  have hname : a.1 = b.1 := le_antisymm (not_lt.1 hab) (not_lt.1 hba)
  have hva := ((h.mem_iff a.1 a.2).1 (hp.mem_iff.1 ha)).2
  have hvb := (mem_bindings.1 hb).2
  exact Prod.ext hname (by rw [← hva, ← hvb, hname])

/-! What a history leaves of the assignments in it. -/

theorem ofList_append : ofList (ws ++ vs) = (ofList ws).setAll vs := setAll_append {} ws vs

theorem mem_bindings_set : (y, w) ∈ (e.set x v).bindings ↔
    if x = y then v = w else (y, w) ∈ e.bindings := by
  rw [mem_bindings, mem_bindings, contains_set, get_set]
  by_cases h : x = y <;> simp [h]

theorem lastWrite?_concat :
    lastWrite? (ws ++ [(x, v)]) y = if x = y then some v else lastWrite? ws y := by
  by_cases h : x = y
  · simp [lastWrite?, h]
  · have hy : (y == x) = false := beq_eq_false_iff_ne.2 (Ne.symm h)
    simp [lastWrite?, h, List.lookup_cons, hy]

theorem mem_bindings_ofList : (x, v) ∈ (ofList ws).bindings ↔ lastWrite? ws x = some v := by
  induction ws using List.reverseRecOn with
  | nil => simp [mem_bindings, ofList, setAll, contains, lastWrite?]
  | append_singleton ws w ih =>
    have hset : ofList (ws ++ [w]) = (ofList ws).set w.1 w.2 := ofList_append
    rw [hset, mem_bindings_set, lastWrite?_concat, ih]
    split <;> simp

theorem Arises.eq_ofList (h : e.Arises ws) : e = .ofList ws := by
  induction h with
  | ofList bs => rfl
  | set before x v ih =>
    rw [ofList_append, ← ih]
    rfl
  | @run e ws before n s h ended ih =>
    rw [s.exec_eq_halt?] at ended
    rw [ofList_append, ← ih]
    exact (Course.halt?_of_some ended e).1

theorem Arises.mem_bindings (h : e.Arises ws) :
    (x, v) ∈ e.bindings ↔ lastWrite? ws x = some v := by
  rw [h.eq_ofList]
  exact mem_bindings_ofList

/-- A text that is run leaves an environment that comes about, too: it changes nothing, or its program
is run. -/
theorem Arises.runSource (h : e.Arises ws) {n : Nat} {source : String} {r : Ending}
    (hr : runSource n source e = some r) : ∃ vs, r.environment.Arises (ws ++ vs) := by
  have hsame : e.Arises (ws ++ []) := by rwa [List.append_nil]
  unfold ImpLang.runSource runTokens at hr
  split at hr
  · cases hr
    exact ⟨[], hsame⟩
  · split at hr
    · cases hr
      exact ⟨[], hsame⟩
    · obtain ⟨t, ht, rfl⟩ := Option.map_eq_some_iff.1 hr
      exact ⟨_, h.run ht⟩

theorem eq_iff_agreesAt : e = f ↔ ∀ x, AgreesAt x e f := by
  refine ⟨?_, fun h => ext_get (fun x => (h x).1) fun x => (h x).2⟩
  rintro rfl x
  exact ⟨rfl, rfl⟩

theorem Arises.eq_iff (he : e.Arises ws) (hf : f.Arises vs) :
    e = f ↔ ∀ x, lastWrite? ws x = lastWrite? vs x := by
  refine ⟨?_, fun h => bindings_inj.1 ?_⟩
  · rintro rfl x
    apply Option.ext
    intro v
    rw [← he.mem_bindings, ← hf.mem_bindings]
  · have hlists : f.Lists e.bindings := by
      refine ⟨e.lists_bindings.once, fun x v => ?_⟩
      rw [he.mem_bindings, h x, ← hf.mem_bindings, Environment.mem_bindings]
    exact hlists.sorted (.refl _) (e.bindings_ordered.imp lt_asymm)

/-- The bindings stand in the strict order of the bytes of their names. They are the bound names, each
with its value, which is that of the last assignment to it, and there are as many as the environment
has; whatever order its entries are listed in, and however they are sorted by name from there, they
come out as the bindings. Environments have the same bindings just when they are equal, so just when
they agree at every name, and when the last assignments to each name in their histories are the
same. -/
theorem bindings_canonical (he : e.Arises ws) (hf : f.Arises vs) :
    (e.bindings.Pairwise fun a b => Utf8.bytes a.1 < Utf8.bytes b.1) ∧
      (∀ x v, (x, v) ∈ e.bindings ↔ e.contains x = true ∧ e.get x = v) ∧
      (∀ x v, (x, v) ∈ e.bindings ↔ lastWrite? ws x = some v) ∧
      e.bindings.length = e.size ∧
      (∀ es us, e.Lists es → us.Perm es →
        (us.Pairwise fun a b => ¬ Utf8.bytes b.1 < Utf8.bytes a.1) → us = e.bindings) ∧
      (e = f ↔ e.bindings = f.bindings) ∧ (e = f ↔ ∀ x, AgreesAt x e f) ∧
      (e = f ↔ ∀ x, lastWrite? ws x = lastWrite? vs x) := by
  simp only [Utf8.bytes_lt_iff]
  exact ⟨e.bindings_ordered, fun _ _ => mem_bindings, fun _ _ => he.mem_bindings,
    e.map.length_toList, fun _ _ => Lists.sorted, bindings_inj.symm, eq_iff_agreesAt, he.eq_iff hf⟩

theorem same_bindings_by_other_ways :
    let s : Statement := .whileDo (.relation "<" (.var "a") (.var "z"))
      (.assign "a" (.operation "+" (.var "a") (.int 1)))
    let start := (ofList [("z", 1), ("a", 1), ("z", 3)]).set "é" 5
    let e := start.setAll [("a", 2), ("a", 3)]
    let ws := [("z", 1), ("a", 1), ("z", 3), ("é", 5), ("a", 2), ("a", 3)]
    let f := ofList [("é", 5), ("a", 3), ("z", 3)]
    s.exec 3 start = some ⟨e, none⟩ ∧ e.Arises ws ∧ e = f ∧
      e.bindings = [("a", 3), ("z", 3), ("é", 5)] ∧
      ∀ us, us.Perm [("é", 5), ("z", 3), ("a", 3)] →
        (us.Pairwise fun a b => ¬ Utf8.bytes b.1 < Utf8.bytes a.1) → us = e.bindings := by
  intro s start e ws f
  have hr : s.exec 3 start = some ⟨e, none⟩ := by decide +kernel
  have hw : (s.course 3 start).writes = [("a", 2), ("a", 3)] := by decide +kernel
  have he : e.Arises ws := by
    have h := Arises.run (.set (.ofList [("z", 1), ("a", 1), ("z", 3)]) "é" 5) hr
    rw [hw] at h
    exact h
  have hb : e.bindings = [("a", 3), ("z", 3), ("é", 5)] := by decide +kernel
  obtain ⟨-, -, -, -, hsorted, heq, -⟩ :=
    bindings_canonical he (.ofList [("é", 5), ("a", 3), ("z", 3)])
  refine ⟨hr, he, heq.2 (by decide +kernel), hb, fun us hp hs => ?_⟩
  apply hsorted e.bindings us e.lists_bindings _ hs
  rw [hb]
  exact hp.trans (by decide)

end Environment
end ImpLang
