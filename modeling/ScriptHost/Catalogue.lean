import ScriptHost.Signature
/-!
# The catalogue of signatures

The signatures for which hosts may register functions, under their names. The
catalogue is closed, and every name spells the signature that it stands for.
-/

namespace ScriptHost.Signature

open NativeType

def unitAdapters : List (String × Signature) :=
  [("func_a_r", ⟨[], .unit⟩), ("func_ai_r", ⟨[int], .unit⟩)]

def valueAdapters : List (String × Signature) :=
  [("func_a_ri", ⟨[], .value (.native int)⟩),
    ("func_a_rb", ⟨[], .value (.native bool)⟩),
    ("func_a_rf", ⟨[], .value (.native float)⟩),
    ("func_a_rs", ⟨[], .value (.native string)⟩),
    ("func_a_rvs", ⟨[], .value (.native strings)⟩),
    ("func_ai_ri", ⟨[int], .value (.native int)⟩),
    ("func_ai_rf", ⟨[int], .value (.native float)⟩),
    ("func_ai_rs", ⟨[int], .value (.native string)⟩),
    ("func_af_rf", ⟨[float], .value (.native float)⟩),
    ("func_af_ri", ⟨[float], .value (.native int)⟩),
    ("func_af_rb", ⟨[float], .value (.native bool)⟩),
    ("func_aff_rf", ⟨[float, float], .value (.native float)⟩),
    ("func_aif_rf", ⟨[int, float], .value (.native float)⟩),
    ("func_afi_rf", ⟨[float, int], .value (.native float)⟩),
    ("func_afi_rb", ⟨[float, int], .value (.native bool)⟩),
    ("func_as_rs", ⟨[string], .value (.native string)⟩),
    ("func_as_rb", ⟨[string], .value (.native bool)⟩),
    ("func_as_rvs", ⟨[string], .value (.native strings)⟩),
    ("func_asi_rs", ⟨[string, int], .value (.native string)⟩),
    ("func_ass_rs", ⟨[string, string], .value (.native string)⟩),
    ("func_ass_ri", ⟨[string, string], .value (.native int)⟩),
    ("func_ass_rb", ⟨[string, string], .value (.native bool)⟩),
    ("func_ass_rvs", ⟨[string, string], .value (.native strings)⟩),
    ("func_assi_rvs", ⟨[string, string, int], .value (.native strings)⟩),
    ("func_avss_rs", ⟨[strings, string], .value (.native string)⟩),
    ("func_ay_rs", ⟨[bytes], .value (.native string)⟩)]

def statusAdapters : List (String × Signature) :=
  [("func_a_re", ⟨[], .status⟩),
    ("func_aii_re", ⟨[int, int], .status⟩),
    ("func_as_re", ⟨[string], .status⟩),
    ("func_asi_re", ⟨[string, int], .status⟩),
    ("func_asii_re", ⟨[string, int, int], .status⟩),
    ("func_ass_re", ⟨[string, string], .status⟩)]

def fallibleAdapters : List (String × Signature) :=
  [("func_a_rse", ⟨[], .fallible (.native string)⟩),
    ("func_a_rye", ⟨[], .fallible (.native bytes)⟩),
    ("func_a_rvie", ⟨[], .fallible .ints⟩),
    ("func_ai_rvse", ⟨[int], .fallible (.native strings)⟩),
    ("func_as_rse", ⟨[string], .fallible (.native string)⟩),
    ("func_as_rie", ⟨[string], .fallible (.native int)⟩),
    ("func_as_rbe", ⟨[string], .fallible (.native bool)⟩),
    ("func_ay_rie", ⟨[bytes], .fallible (.native int)⟩)]

def catalogue : List (String × Signature) :=
  unitAdapters ++ valueAdapters ++ statusAdapters ++ fallibleAdapters

def ofName? (name : String) : Option Signature :=
  catalogue.lookup name

theorem length_catalogue : catalogue.length = 42 := by decide

theorem nodup_names_catalogue : (catalogue.map Prod.fst).Nodup := by decide

theorem name_of_mem_catalogue : ∀ e ∈ catalogue, e.2.name = e.1 := by decide

theorem name_of_ofName? {name : String} {s : Signature} (hs : ofName? name = some s) :
    s.name = name := by
  obtain ⟨before, after, heq, -⟩ := List.lookup_eq_some_iff.1 hs
  apply name_of_mem_catalogue (name, s)
  rw [heq]
  exact List.mem_append_right before List.mem_cons_self

end ScriptHost.Signature
