import NameResolution.Proofs.Analysis.Stages
import NameResolution.Proofs.Import.Closure
import NameResolution.Proofs.Module.Interface
import NameResolution.Proofs.Scope.View

/-!
# Tables that show the same

Two tables of interfaces show the same if they answer the same to every question about what is
declared and what is exported, and have the same namespaces in reach of each namespace.  They may
hold their imports in another order, or more than one for a target.  A module is then resolved
alike in both of them, as long as no search for imports in reach faults
(`Interfaces.SameView.resolve_eq_ok`).
-/

namespace NameResolution

namespace Interfaces

variable {interfaces interfaces' : Interfaces}

/-- Both tables show the same declarations, exports and namespaces in reach. -/
structure SameView (interfaces interfaces' : Interfaces) : Prop where
  hasDecl_eq : ∀ ns ident, interfaces'.hasDecl ns ident = interfaces.hasDecl ns ident
  hasExport_eq : ∀ ns ident, interfaces'.hasExport ns ident = interfaces.hasExport ns ident
  inReach_iff : ∀ {ns target : Namespace},
    InReach interfaces' ns target ↔ InReach interfaces ns target

namespace SameView

/-- The resolver of a module has the same view in both tables. -/
theorem context (h : interfaces.SameView interfaces') {ns : Namespace} {reach reach' : List Import}
    (hreach : interfaces.reach ns = .ok reach) (hreach' : interfaces'.reach ns = .ok reach')
    (limit : UInt32) :
    Context.SameView ⟨interfaces, ns, reach, limit⟩ ⟨interfaces', ns, reach', limit⟩ where
  owner_eq := rfl
  limit_eq := rfl
  hasDecl_eq := h.hasDecl_eq
  hasExport_eq := h.hasExport_eq
  reach := by
    -- The searches list each target once, so it is enough that they list the same ones.
    rw [List.perm_ext_iff_of_nodup (nodup_targets_reach hreach) (nodup_targets_reach hreach')]
    intro target
    rw [mem_targets_reach_iff hreach, mem_targets_reach_iff hreach', h.inReach_iff]

/-- **Modules with the same declarations are resolved alike in tables that show the same.** -/
theorem resolve_eq_ok (h : interfaces.SameView interfaces') (hclosed : interfaces'.Closed)
    {m m' resolved : Module} (hns : m'.ns = m.ns) (hdecls : m'.decls = m.decls)
    (hknown : (interfaces'.get? m.ns).isSome) {limit : UInt32}
    (hresolve : m.resolve interfaces limit = .ok resolved) :
    m'.resolve interfaces' limit = .ok { m' with decls := resolved.decls } := by
  obtain ⟨reach, decls, b, hreach, hderived, rfl⟩ := Module.resolve_eq_ok_iff.mp hresolve
  obtain ⟨reach', hreach'⟩ := hclosed.exists_reach_eq_ok hknown
  have hkeeps := (h.context hreach hreach' limit).keeps
  have hderived' :
      Decl.ResolvesList ⟨interfaces', m'.ns, reach', limit⟩ m'.decls .empty decls b := by
    rw [hns, hdecls]
    exact hderived.of_keeps hkeeps
  refine Module.resolve_eq_ok_iff.mpr ⟨reach', decls, b, ?_, hderived', rfl⟩
  rw [hns, hreach']

end SameView

end Interfaces

end NameResolution
