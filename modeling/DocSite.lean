import DocSite.Main
import DocSite.Template.Family
import DocSite.Template.Recipe
import DocSite.Proofs.Law
import DocSite.Proofs.Scope
import DocSite.Proofs.Budget
import DocSite.Proofs.Markup
import DocSite.Proofs.Rendered
import DocSite.Proofs.Reading
import DocSite.Proofs.Evaluation
import DocSite.Proofs.Expansion
import DocSite.Proofs.Provenance
import DocSite.Proofs.Guarded
import DocSite.Proofs.Woven
import DocSite.Proofs.Genuine
import DocSite.Proofs.Injection
import DocSite.Proofs.Grammar
import DocSite.Proofs.Transcript
import DocSite.Proofs.Sealed
import DocSite.Proofs.Recognition
import DocSite.Proofs.Canonical
import DocSite.Proofs.Deferral
import DocSite.Proofs.Memory
import DocSite.Proofs.Progress
import DocSite.Proofs.Confined
import DocSite.Proofs.Delivery
import DocSite.Proofs.Linking
import DocSite.Proofs.Roots
import DocSite.Proofs.Sources
import DocSite.Proofs.Inclusion
import DocSite.Proofs.Lockstep
import DocSite.Proofs.DistinctKeys
import DocSite.Proofs.Filling
import DocSite.Proofs.Idle
import DocSite.Proofs.Independence
import DocSite.Proofs.Overlay
import DocSite.Proofs.Forks
import DocSite.Proofs.SectionNames
import DocSite.Proofs.Leading
import DocSite.Proofs.MenuPlaces
import DocSite.Proofs.MenuText
import DocSite.Proofs.Selection
import DocSite.Proofs.TemplateDirs
import DocSite.Proofs.Visits
import DocSite.Proofs.Phases
import DocSite.Proofs.Divided
import DocSite.Proofs.Layered
import DocSite.Proofs.Ending
import DocSite.Proofs.Turns
import DocSite.Proofs.Accounts
import DocSite.Proofs.Numbered
import DocSite.Proofs.Unclosed
import DocSite.Proofs.Picker
import DocSite.Proofs.Overdraft
import DocSite.Proofs.Segments
