import GrantPlan.Authority
import GrantPlan.Catalog
import GrantPlan.Catalog.Document
import GrantPlan.Catalog.Query
import GrantPlan.Catalog.Server
import GrantPlan.CommandLine
import GrantPlan.Disk
import GrantPlan.Disk.Path
import GrantPlan.Disk.Tree
import GrantPlan.DocumentError
import GrantPlan.Error
import GrantPlan.Identifier
import GrantPlan.Identifier.Keyword
import GrantPlan.Json
import GrantPlan.Json.Text
import GrantPlan.Main
import GrantPlan.Membership
import GrantPlan.ObjectKind
import GrantPlan.ObjectName
import GrantPlan.Ordered.Map
import GrantPlan.Ordered.Set
import GrantPlan.Output
import GrantPlan.Plan
import GrantPlan.Privilege
import GrantPlan.Program
import GrantPlan.Report
import GrantPlan.Scope
import GrantPlan.Script
import GrantPlan.Spec
import GrantPlan.Spec.Document
import GrantPlan.Statement
import GrantPlan.Target
import GrantPlan.Text.Blank
import GrantPlan.Yaml.Block
import GrantPlan.Yaml.Folding
import GrantPlan.Yaml.Lexer
import GrantPlan.Yaml.Node
import GrantPlan.Yaml.Tag
import GrantPlan.Yaml.Text
import GrantPlan.Yaml.Token
import GrantPlan.Yaml.Value
import GrantPlan.Proofs.DiskTree
import GrantPlan.Proofs.Traversal
import GrantPlan.Proofs.Entitlement
import GrantPlan.Proofs.Scope
import GrantPlan.Proofs.Plan
import GrantPlan.Proofs.Convergence
import GrantPlan.Proofs.Minimality
import GrantPlan.Proofs.Request
import GrantPlan.Proofs.FinalState
import GrantPlan.Proofs.Spelling
import GrantPlan.Proofs.Creation
import GrantPlan.Proofs.Upkeep
import GrantPlan.Proofs.Membership
import GrantPlan.Proofs.Writers
import GrantPlan.Proofs.Ownership
import GrantPlan.Proofs.JsonText
import GrantPlan.Proofs.CatalogText
import GrantPlan.Proofs.Recording
import GrantPlan.Proofs.History
import GrantPlan.Proofs.Reload
import GrantPlan.Proofs.Loading
import GrantPlan.Proofs.Failure
import GrantPlan.Proofs.SqlCommand
import GrantPlan.Proofs.SqlScript
import GrantPlan.Proofs.RoleShare
import GrantPlan.Proofs.Layout
import GrantPlan.Proofs.Order
import GrantPlan.Proofs.StoredGrants
import GrantPlan.Proofs.Settled
import GrantPlan.Proofs.Delivery
import GrantPlan.Proofs.Report
import GrantPlan.Proofs.SchemaOwners
import GrantPlan.Proofs.FunctionNames
import GrantPlan.Proofs.Contents
import GrantPlan.Proofs.Indexing
import GrantPlan.Proofs.Search
import GrantPlan.Proofs.Creators
