import Quire.Proofs.Registry
import Quire.Template.Basic

/-!
# What has been supplied

Each way to supply something changes one registry of a template and leaves the others.
-/

namespace Quire.Template

variable (template : Template) (key : String)

@[simp]
theorem values_supply (value : String) :
    (template.supply key value).values = template.values.insert key value := rfl

@[simp]
theorem conditionals_supply (value : String) :
    (template.supply key value).conditionals = template.conditionals := rfl

@[simp]
theorem iterables_supply (value : String) :
    (template.supply key value).iterables = template.iterables := rfl

@[simp]
theorem values_supplyOptional (value : Option String) :
    (template.supplyOptional key value).values = template.values.insert key (value.getD "") := rfl

@[simp]
theorem conditionals_supplyOptional (value : Option String) :
    (template.supplyOptional key value).conditionals = template.conditionals := rfl

@[simp]
theorem iterables_supplyOptional (value : Option String) :
    (template.supplyOptional key value).iterables = template.iterables := rfl

@[simp]
theorem values_showBlocks (holds : Bool) :
    (template.showBlocks key holds).values = template.values := rfl

@[simp]
theorem conditionals_showBlocks (holds : Bool) :
    (template.showBlocks key holds).conditionals = template.conditionals.insert key holds := rfl

@[simp]
theorem iterables_showBlocks (holds : Bool) :
    (template.showBlocks key holds).iterables = template.iterables := rfl

@[simp]
theorem values_repeatOver (rows : List TemplateRow) :
    (template.repeatOver key rows).values = template.values := rfl

@[simp]
theorem conditionals_repeatOver (rows : List TemplateRow) :
    (template.repeatOver key rows).conditionals = template.conditionals := rfl

@[simp]
theorem iterables_repeatOver (rows : List TemplateRow) :
    (template.repeatOver key rows).iterables = template.iterables.insert key rows := rfl

end Quire.Template
