import Latiq.Library.Unwind
import Latiq.Library.SqlLex
import Latiq.Library.SqlRewrite
import Latiq.Library.RustStr
import Latiq.Library.Scanner
import Latiq.Library.Runs
import Latiq.Library.Window
import Latiq.Library.Paging
import Latiq.Library.Grouping
import Latiq.Library.Migrate
import Latiq.Library.Gregorian
import Latiq.Library.Decimal
import Latiq.Library.Json
import Latiq.Library.SqlTemplate
import Latiq.Library.Words
import Latiq.Engine.Sql
import Latiq.Engine.Tokens
import Latiq.EngineDuckdb.Errclass
import Latiq.EngineDuckdb.Duckdb
import Latiq.EngineDuckdb.Grammar
import Latiq.EngineDuckdb.Exec
import Latiq.EngineDuckdb.DuckEngine
import Latiq.EngineDuckdb.Bracket
import Latiq.EngineDuckdb.WriteReport
import Latiq.EngineDuckdb.Attribution
import Latiq.EngineDuckdb.WriterConnection
import Latiq.EngineDuckdb.Cancellation
import Latiq.EngineDuckdb.LeadingClass
import Latiq.EngineDuckdb.ReadSurface
import Latiq.EngineDuckdb.Explain
import Latiq.EngineDuckdb.SessionIsolation
import Latiq.EngineDuckdb.ReadPool
import Latiq.EngineDuckdb.OneWriter
import Latiq.Common.PondOptions
import Latiq.Common.Id
import Latiq.Library.Serde
import Latiq.Common.Trace
import Latiq.Common.Error
import Latiq.Common.Meta
import Latiq.Storage.LocalFs
import Latiq.ControlPlane.Registry
import Latiq.ControlPlane.CreatePond
import Latiq.ControlPlane.References
import Latiq.ControlPlane.WellFormed
import Latiq.ControlPlane.Migrations
import Latiq.ControlPlane.Datasets
import Latiq.ControlPlane.Search
import Latiq.EngineDuckdb.PondInstance
import Latiq.EngineDuckdb.DescribeSchema
import Latiq.EngineDuckdb.CatalogCalls
import Latiq.EngineDuckdb.Attachers
import Latiq.EngineDuckdb.Temporal
import Latiq.Library.Collect
import Latiq.EngineDuckdb.ValueJson
import Latiq.EngineDuckdb.NestedJson
import Latiq.Library.Whatwg
import Latiq.Library.TwoRuns
import Latiq.EngineDuckdb.LineageUnseen
import Latiq.Auth.JwksUri
import Latiq.Lineage.Event
import Latiq.Lineage.Identities
import Latiq.Lineage.Writer
import Latiq.Lineage.Reader
import Latiq.Lineage.Sink
import Latiq.Auth.Jwks
import Latiq.Auth.Verify
import Latiq.AgentCore.Redact
import Latiq.AgentCore.Noninterference
import Latiq.AgentCore.Lineage
import Latiq.AgentCore.Trail
import Latiq.AgentCore.Pages
import Latiq.AgentCore.GetLineage
import Latiq.AgentCore.ArrowStream
import Latiq.AgentCore.Collect
import Latiq.AgentCore.Inflight
import Latiq.AgentCore.Gauge
import Latiq.AgentCore.Placement
import Latiq.AgentCore.DropPond
import Latiq.AgentCore.DropRace
import Latiq.AgentCore.Stopping
import Latiq.AgentCore.Error
import Latiq.AgentCore.Ops
import Latiq.AgentCore.Deadline
import Latiq.AgentCore.Literals
import Latiq.AgentCore.DatasetLoad
import Latiq.AgentCore.Recorded
import Latiq.AgentCore.GeneratedSql
import Latiq.PondNode.Wire
import Latiq.PondNode.Status
import Latiq.PondNode.ArrowChunks
import Latiq.PondNode.Forward
import Latiq.PondNode.ForwardClient
import Latiq.Library.JsonSchema
import Latiq.Library.JsonCodec
import Latiq.Library.JsonTree
import Latiq.Mcp.Encode
import Latiq.Mcp.Schema
import Latiq.EngineDuckdb.Plan
import Latiq.EngineDuckdb.ExplainPlan
import Latiq.Library.Percent
import Latiq.Auth.Door
import Latiq.Common.Catalog
import Latiq.ControlPlane.Service
import Latiq.ControlPlane.AdminService
import Latiq.ControlPlane.Provenance
import Latiq.PondNode.GrpcControl
import Latiq.ControlPlane.Liveness
import Latiq.Library.JsonLines
import Latiq.Lineage.Jsonl
import Latiq.AgentCore.Verbatim
import Latiq.PondNode.Relay
