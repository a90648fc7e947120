import RefSite.Config.KeyPath
import RefSite.Item.Build
import RefSite.Item.Encode
import RefSite.Item.Store
import RefSite.Main
import RefSite.Markup.WellFormed
import RefSite.Site.Prune
import RefSite.Proofs.Markup.Characters
import RefSite.Proofs.Markup.Escape
import RefSite.Proofs.Markup.Unambiguous
import RefSite.Proofs.Comment.RoundTrip
import RefSite.Proofs.Item.RoundTrip
import RefSite.Proofs.Site.Steps
import RefSite.Proofs.Site.Writing
import RefSite.Proofs.Site.Anchors
import RefSite.Proofs.Site.Links
import RefSite.Proofs.Files.Place
import RefSite.Proofs.Files.Walk
import RefSite.Proofs.Files.Growth
import RefSite.Proofs.Files.Changes
import RefSite.Proofs.Site.Faults
import RefSite.Proofs.Site.Storage
import RefSite.Proofs.Site.Order
import RefSite.Proofs.CommandLine.Endings
import RefSite.Proofs.Value.Parts
import RefSite.Proofs.Comment.Reading
import RefSite.Proofs.Item.Reading
import RefSite.Proofs.Comment.Showing
import RefSite.Proofs.Site.Showing
import RefSite.Proofs.Site.Loaded
import RefSite.Proofs.Files.Making
import RefSite.Proofs.Site.Replacement
import RefSite.Proofs.Site.Rows
import RefSite.Proofs.Site.Members
import RefSite.Proofs.Comment.Texts
import RefSite.Proofs.Item.Texts
import RefSite.Proofs.Site.EnumValues
import RefSite.Proofs.Site.EntryPoints
import RefSite.Proofs.Site.StylesheetCopy
import RefSite.Proofs.Files.Filling
import RefSite.Proofs.Site.Shown
import RefSite.Proofs.Site.Correspondence
import RefSite.Proofs.Site.KnownKinds
import RefSite.Proofs.Site.Pruning
import RefSite.Proofs.Site.Positions
import RefSite.Proofs.Site.Counterparts
import RefSite.Proofs.Site.Refilling
import RefSite.Proofs.Site.Independence
import RefSite.Proofs.Site.RowOrder
import RefSite.Proofs.Site.Reordering
import RefSite.Proofs.Item.FileNames
import RefSite.Proofs.Site.Trails
import RefSite.Proofs.Site.Reruns
import RefSite.Proofs.Site.Hooks
import RefSite.Proofs.Config.Reading
import RefSite.Proofs.Item.ParentLinks
import RefSite.Proofs.Item.Layout
import RefSite.Proofs.Item.Stored
import RefSite.Proofs.Site.Tables
import RefSite.Proofs.Comment.Traversal
import RefSite.Proofs.Files.Address
import RefSite.Proofs.Config.StylesheetPath
import RefSite.Proofs.Item.SafeNames
import RefSite.Proofs.Text.LineEnds
import RefSite.Proofs.Files.Likeness
import RefSite.Proofs.Site.LineEnds
import RefSite.Proofs.Site.Layout
import RefSite.Proofs.Item.Attaching
import RefSite.Proofs.Config.Defaults
import RefSite.Proofs.Files.ModelFiles
import RefSite.Proofs.Value.Numbers
import RefSite.Proofs.Item.Overloads
import RefSite.Proofs.Yaml.Mappings
import RefSite.Proofs.Number.Equality
import RefSite.Proofs.Value.Keys
import RefSite.Proofs.Config.KeyPaths
import RefSite.Proofs.Config.Overlay
import RefSite.Proofs.Config.Layers
