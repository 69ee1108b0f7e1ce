import ChartLowering.Proofs.Names.Placed
import ChartLowering.Proofs.Similar.Sharing

/-
  Specifications that are alike.

  Two views are alike if they are built of the same parts, each with one sketch, and read data that
  correspond in some given way (`ViewSpec.Alike`). Whatever that way is, the resolved trees of alike
  specifications have one sketch (`sketch_resolved`), and the views of the one read data that
  correspond to those of the other (`data_resolved`).
-/

namespace ChartLowering

variable {p : Place} {D : DataSpec → DataSpec → Prop}

/-- Two views with one name and size, and data that correspond. -/
structure ViewBase.Alike (D : DataSpec → DataSpec → Prop) (b c : ViewBase) : Prop where
  name : b.name = c.name
  width : b.width = c.width
  height : b.height = c.height
  data : Option.Rel D b.data c.data

mutual

/-- Two views that differ at most in their data, which correspond, and in what no sketch keeps. -/
inductive ViewSpec.Alike (p : Place) (D : DataSpec → DataSpec → Prop) :
    ViewSpec → ViewSpec → Prop where
  | unit {b c : ViewBase} {u v : UnitSpec} (base : b.Alike D c) (unit : u.sketch p = v.sketch p) :
    Alike p D (.unit b u) (.unit c v)
  | layer {b c : ViewBase} {kids others : List ViewSpec} {r s : ResolveSpec} (base : b.Alike D c)
      (children : AlikeAll p D kids others) (resolve : r.sketch = s.sketch) :
    Alike p D (.layer b kids r) (.layer c others s)
  | facet {b c : ViewBase} {m n : FacetMapping} {kid other : ViewSpec} {r s : ResolveSpec}
      (base : b.Alike D c) (mapping : m.sketch = n.sketch) (child : Alike p D kid other)
      (resolve : r.sketch = s.sketch) :
    Alike p D (.facet b m kid r) (.facet c n other s)
  | concat {b c : ViewBase} {kids others : List ViewSpec} {d e : Direction} {r s : ResolveSpec}
      (base : b.Alike D c) (children : AlikeAll p D kids others) (resolve : r.sketch = s.sketch) :
    Alike p D (.concat b kids d r) (.concat c others e s)

/-- Sibling views that are alike, one by one. -/
inductive ViewSpec.AlikeAll (p : Place) (D : DataSpec → DataSpec → Prop) :
    List ViewSpec → List ViewSpec → Prop where
  | nil : AlikeAll p D [] []
  | cons {kid other : ViewSpec} {kids others : List ViewSpec} (head : Alike p D kid other)
      (tail : AlikeAll p D kids others) : AlikeAll p D (kid :: kids) (other :: others)

end

theorem ViewSpec.Alike.base_eq {s s' : ViewSpec} (h : s.Alike p D s') : s.base.Alike D s'.base := by
  cases h <;> assumption

/-- Two specifications whose views and configurations are alike. -/
structure TopLevelSpec.Alike (p : Place) (D : DataSpec → DataSpec → Prop)
    (t t' : TopLevelSpec) : Prop where
  view : t.view.Alike p D t'.view
  config : t.config.sketch p = t'.config.sketch p

/-- Two views that read corresponding data, each its own or those of a view around it. -/
structure View.SameData (D : DataSpec → DataSpec → Prop) (v w : View) : Prop where
  own : Option.Rel D v.ownData w.ownData
  read : Option.Rel D v.data w.data

namespace ViewTree

open View

/-- Corresponding data are there together. -/
theorem map_blank_eq {d e : Option DataSpec} (h : Option.Rel D d e) :
    (d.map fun _ => DataSpec.blank) = e.map fun _ => DataSpec.blank := by
  cases h <;> rfl

theorem rel_or {d e inherited further : Option DataSpec} (h : Option.Rel D d e)
    (hinherited : Option.Rel D inherited further) : Option.Rel D (d.or inherited) (e.or further) := by
  cases h with
  | none => exact hinherited
  | some hde => exact .some hde

/-! ## Single views -/

theorem sketch_viewOf (name : String) (form : ViewForm) (base : ViewBase)
    (inherited : Option DataSpec) : (viewOf name form base inherited).sketch p =
      viewOf name (form.sketch p) { base with data := base.data.map fun _ => .blank }
        (inherited.map fun _ => .blank) := by
  have hor : ((base.data.or inherited).map fun _ => DataSpec.blank) =
      (base.data.map fun _ => .blank).or (inherited.map fun _ => .blank) := Option.map_or
  have hkind : (form.sketch p).kind = form.kind := form.kind_sketch
  unfold viewOf isSized kind
  simp only [hkind]
  split <;> simp only [sketch, Dimension.all, List.foldl, seed, partName, hor] <;> rfl

theorem viewOf_alike (name : String) {form form' : ViewForm} (hform : form.sketch p = form'.sketch p)
    {b c : ViewBase} (hbase : b.Alike D c) {inherited further : Option DataSpec}
    (hdata : Option.Rel D inherited further) :
    (viewOf name form b inherited).sketch p = (viewOf name form' c further).sketch p := by
  rw [sketch_viewOf, sketch_viewOf, hform, hbase.name, hbase.width, hbase.height,
    map_blank_eq hbase.data, map_blank_eq hdata]

theorem sameData_viewOf (name name' : String) (form form' : ViewForm) {b c : ViewBase}
    (hbase : b.Alike D c) {inherited further : Option DataSpec}
    (hdata : Option.Rel D inherited further) :
    SameData D (viewOf name form b inherited) (viewOf name' form' c further) where
  own := by
    rw [ownData_viewOf, ownData_viewOf]
    exact hbase.data
  read := by
    rw [data_viewOf, data_viewOf]
    exact rel_or hbase.data hdata

/-! ## Trees as they are built -/

mutual

theorem sketch_build (name : String) {inherited further : Option DataSpec}
    (hdata : Option.Rel D inherited further) : ∀ {s s' : ViewSpec}, s.Alike p D s' →
      (build name inherited s).map (sketch p) = (build name further s').map (sketch p)
  | _, _, .unit hbase hunit => by
    have hform : (ViewForm.unit _).sketch p = (ViewForm.unit _).sketch p :=
      congrArg ViewForm.unit hunit
    rw [build, build, Tree.map_node, Tree.map_node,
      viewOf_alike name hform hbase hdata]
  | _, _, .layer hbase hkids hresolve => by
    have hform : (ViewForm.layer _).sketch p = (ViewForm.layer _).sketch p :=
      congrArg ViewForm.layer hresolve
    rw [build, build, Tree.map_node, Tree.map_node,
      viewOf_alike name hform hbase hdata,
      sketch_buildAll name layerPosition (sameData_viewOf _ name _ _ hbase hdata).read 0 hkids]
  | _, _, .facet hbase hmapping hkid hresolve => by
    have hform : (ViewForm.facet _ _).sketch p = (ViewForm.facet _ _).sketch p :=
      congrArg₂ ViewForm.facet hmapping hresolve
    rw [build, build, Tree.map_node, Tree.map_node,
      viewOf_alike name hform hbase hdata, hkid.base_eq.name,
      List.map_singleton, List.map_singleton,
      sketch_build _ (sameData_viewOf _ name _ _ hbase hdata).read hkid]
  | _, _, .concat hbase hkids hresolve => by
    have hform : (ViewForm.concat _).sketch p = (ViewForm.concat _).sketch p :=
      congrArg ViewForm.concat hresolve
    rw [build, build, Tree.map_node, Tree.map_node,
      viewOf_alike name hform hbase hdata,
      sketch_buildAll name concatPosition (sameData_viewOf _ name _ _ hbase hdata).read 0 hkids]

theorem sketch_buildAll (parent : String) (position : Nat → String)
    {inherited further : Option DataSpec} (hdata : Option.Rel D inherited further) (i : Nat) :
    ∀ {kids others : List ViewSpec}, ViewSpec.AlikeAll p D kids others →
      (buildAll parent position inherited i kids).map (Tree.map (sketch p)) =
        (buildAll parent position further i others).map (Tree.map (sketch p))
  | _, _, .nil => rfl
  | _, _, .cons hkid hkids => by
    rw [buildAll, buildAll, List.map_cons, List.map_cons, hkid.base_eq.name,
      sketch_build _ hdata hkid, sketch_buildAll parent position hdata (i + 1) hkids]

end

mutual

theorem sameData_build (name name' : String) {inherited further : Option DataSpec}
    (hdata : Option.Rel D inherited further) : ∀ {s s' : ViewSpec}, s.Alike p D s' →
      List.Forall₂ (SameData D) (build name inherited s).labels (build name' further s').labels
  | _, _, .unit hbase hunit => by
    rw [build, build, Tree.labels_node, Tree.labels_node]
    exact .cons (sameData_viewOf _ _ _ _ hbase hdata) .nil
  | _, _, .layer hbase hkids hresolve => by
    rw [build, build, Tree.labels_node, Tree.labels_node]
    exact .cons (sameData_viewOf _ _ _ _ hbase hdata)
      (sameData_buildAll _ _ _ (sameData_viewOf name name' _ _ hbase hdata).read 0 hkids)
  | _, _, .facet hbase hmapping hkid hresolve => by
    rw [build, build, Tree.labels_node, Tree.labels_node, List.flatMap_singleton,
      List.flatMap_singleton]
    exact .cons (sameData_viewOf _ _ _ _ hbase hdata)
      (sameData_build _ _ (sameData_viewOf name name' _ _ hbase hdata).read hkid)
  | _, _, .concat hbase hkids hresolve => by
    rw [build, build, Tree.labels_node, Tree.labels_node]
    exact .cons (sameData_viewOf _ _ _ _ hbase hdata)
      (sameData_buildAll _ _ _ (sameData_viewOf name name' _ _ hbase hdata).read 0 hkids)

theorem sameData_buildAll (parent parent' : String) (position : Nat → String)
    {inherited further : Option DataSpec} (hdata : Option.Rel D inherited further) (i : Nat) :
    ∀ {kids others : List ViewSpec}, ViewSpec.AlikeAll p D kids others →
      List.Forall₂ (SameData D) ((buildAll parent position inherited i kids).flatMap Tree.labels)
        ((buildAll parent' position further i others).flatMap Tree.labels)
  | _, _, .nil => .nil
  | _, _, .cons hkid hkids => by
    rw [buildAll, buildAll, List.flatMap_cons, List.flatMap_cons]
    exact List.rel_append (sameData_build _ _ hdata hkid)
      (sameData_buildAll parent parent' position hdata (i + 1) hkids)

end

/-! ## Resolved trees -/

variable {t t' : TopLevelSpec}

/-- The resolved trees of alike specifications have one sketch. -/
theorem sketch_resolved (hp : p.IsUniform) (settings : Settings) (h : t.Alike p D t') :
    (t.resolved settings).map (sketch p) = (t'.resolved settings).map (sketch p) := by
  have hbuilt : (ofSpec t.view).map (sketch p) = (ofSpec t'.view).map (sketch p) := by
    unfold ofSpec
    rw [h.view.base_eq.name]
    exact sketch_build _ .none h.view
  exact resolve_alike hp h.config (layout_alike hbuilt) rfl

/-- The views of alike specifications read data that correspond. -/
theorem sameData_resolved (settings : Settings) (h : t.Alike p D t') :
    List.Forall₂ (SameData D) (t.resolved settings).labels (t'.resolved settings).labels := by
  -- resolving changes no data
  have hdata : ∀ t : TopLevelSpec, (t.resolved settings).labels.map (fun v => (v.ownData, v.data)) =
      (ofSpec t.view).labels.map fun v => (v.ownData, v.data) :=
    map_labels_resolved (fun _ _ => rfl) (fun _ => rfl) settings
  have hbuilt : List.Forall₂ (SameData D) (ofSpec t.view).labels (ofSpec t'.view).labels :=
    sameData_build _ _ .none h.view
  have hpairs : List.Forall₂ (fun d e => Option.Rel D d.1 e.1 ∧ Option.Rel D d.2 e.2)
      ((t.resolved settings).labels.map fun v => (v.ownData, v.data))
      ((t'.resolved settings).labels.map fun v => (v.ownData, v.data)) := by
    rw [hdata, hdata, List.forall₂_map_left_iff, List.forall₂_map_right_iff]
    exact hbuilt.imp fun _ _ hvw => ⟨hvw.own, hvw.read⟩
  rw [List.forall₂_map_left_iff, List.forall₂_map_right_iff] at hpairs
  exact hpairs.imp fun _ _ hvw => ⟨hvw.1, hvw.2⟩

end ViewTree

end ChartLowering
